import LedgeTopOps.MeasurementExclusion

namespace LedgeTopOps.MeasurementExclusion
open Option hiding pure_def
open Int Nat
open List hiding after
open KeyedRows StepRuns MeasurementLanes

def Concluded (job : Job) : Prop := job.status = .complete ∨ (job.status = .failed ∧ job.resultJson ≠ none)

def Finishes (event : Event) (lane : Lane) (job : Job) : Prop :=
  match event with
  | .finishCalculation target owner token _ _ _ => lane = .calculation ∧ target = job.id ∧ job.holds owner token = true
  | .finishEphemeral checked _ _ =>
    lane = .ephemeral ∧ checked.id = job.id ∧ job.status = .running ∧ job.leaseToken = some checked.token
  | _ => False

structure Moved (event : Event) (lane : Lane) (old new : Job) : Prop where
  id : new.id = old.id
  active : new.status.active = true → old.status.active = true
  concluded : Concluded new → (new.status = old.status ∧ new.resultJson = old.resultJson) ∨ Finishes event lane old

theorem Moved.refl : Moved event lane job job := ⟨rfl,fun active => active,fun _ => Or.inl ⟨rfl,rfl⟩⟩

def Related (moves : Lane → Job → Job → Prop) (before after : Database) : Prop :=
  ∀ lane, ∀ new ∈ jobs after lane, ∃ old ∈ jobs before lane, moves lane old new

structure Marked (old new : Job) : Prop where
  id : new.id = old.id
  active : new.status.active = true → old.status.active = true
  concluded : Concluded new → new.status = old.status ∧ new.resultJson = old.resultJson

theorem Marked.after (marked : Marked middle new) (moved : Moved event lane old middle) : Moved event lane old new := by
  refine ⟨marked.id.trans moved.id,fun active => moved.active (marked.active active),fun concluded => ?_⟩
  obtain ⟨status,result⟩ := marked.concluded concluded
  have earlier : Concluded middle := by
    unfold Concluded at concluded ⊢
    rw [←status,←result]
    exact concluded
  rcases moved.concluded earlier with ⟨sameStatus,sameResult⟩ | finish
  · exact Or.inl ⟨status.trans sameStatus,result.trans sameResult⟩
  exact Or.inr finish

theorem Marked.refl : Marked job job := ⟨rfl,fun active => active,fun _ => ⟨rfl,rfl⟩⟩

theorem Settled.marked (settled : Settled old new) (blank : old.status.active → old.resultJson = none) : Marked old new := by
  refine ⟨settled.id,fun active => settled.rests.active active ▸ active,fun concluded => ?_⟩
  rcases settled.moved with rfl | ⟨-,result,cancelled | ⟨failed,running⟩⟩
  · exact ⟨rfl,rfl⟩
  · rcases concluded with complete | ⟨spent,-⟩
    · rw [cancelled] at complete
      cases complete
    · rw [cancelled] at spent
      cases spent
  rcases concluded with complete | ⟨-,present⟩
  · rw [failed] at complete
    cases complete
  have none_ : old.resultJson = none := blank (by rw [running]; rfl)
  rcases result with same | gone
  · exact absurd (same.trans none_) present
  exact absurd gone present

def Blank (database : Database) : Prop :=
  ∀ lane, ∀ job ∈ jobs database lane, job.status.active = true → job.resultJson = none

theorem Inv.blank (valid : Inv world) : Blank world.database := by
  intro lane _ mem active
  cases lane with
  | calculation =>
    obtain ⟨row,there,rfl⟩ := mem_map.mp mem
    exact valid.blankCalculations row there active
  | ephemeral =>
    obtain ⟨row,there,rfl⟩ := mem_map.mp mem
    exact valid.blankEphemerals row there active

theorem Follows.jobs (follows : Follows moves before after) (lane : Lane) (mem : new ∈ jobs after lane) : ∃ old ∈ jobs before lane, moves old new := by
  cases lane with
  | calculation =>
    obtain ⟨row,there,rfl⟩ := mem_map.mp mem
    obtain ⟨old,inside,moved⟩ := follows.calculations row there
    exact ⟨old.job,mem_map_of_mem inside,moved⟩
  | ephemeral =>
    obtain ⟨row,there,rfl⟩ := mem_map.mp mem
    obtain ⟨old,inside,moved,-⟩ := follows.ephemerals row there
    exact ⟨old.job,mem_map_of_mem inside,moved⟩

theorem Settles.marked (settles : Settles before after) (blank : Blank before) : Related (fun _ => Marked) before after := by
  intro lane _ mem
  obtain ⟨old,there,settled⟩ := settles.jobs lane mem
  exact ⟨old,there,Settled.marked settled (blank lane old there)⟩

theorem Related.marked (moved : Related (Moved event) before middle) (marked : Related (fun _ => Marked) middle after) :
    Related (Moved event) before after := by
  intro lane new mem
  obtain ⟨mid,there,later⟩ := marked lane new mem
  obtain ⟨old,inside,earlier⟩ := moved lane mid there
  exact ⟨old,inside,later.after earlier⟩

theorem Related.refl (same : ∀ lane job, moves lane job job) : Related moves database database :=
  fun lane job mem => ⟨job,mem,same lane job⟩

section
variable {moves : Lane → Job → Job → Prop} (same : ∀ lane job, moves lane job job)
include same

theorem related_calculation (calculations : after.calculations = amend Calculation.id before.calculations target (Calculation.map change))
    (ephemerals : after.ephemerals = before.ephemerals)
    (moved : ∀ row ∈ before.calculations, row.id = target → moves .calculation row.job (change row.job)) : Related moves before after := by
  intro lane new mem
  cases lane with
  | calculation =>
    obtain ⟨row,there,rfl⟩ := mem_map.mp mem
    rw [calculations] at there
    rcases calculation_amended there with ⟨kept,-⟩ | ⟨old,inside,found,rfl⟩
    · exact ⟨row.job,mem_map_of_mem kept,same _ _⟩
    exact ⟨old.job,mem_map_of_mem inside,moved old inside found⟩
  | ephemeral =>
    unfold jobs at mem
    rw [ephemerals] at mem
    exact ⟨new,mem,same _ _⟩

theorem related_ephemeral (ephemerals : after.ephemerals = amend Ephemeral.id before.ephemerals target (Ephemeral.map change))
    (calculations : after.calculations = before.calculations)
    (moved : ∀ row ∈ before.ephemerals, row.id = target → moves .ephemeral row.job (change row.job)) : Related moves before after := by
  intro lane new mem
  cases lane with
  | calculation =>
    unfold jobs at mem
    rw [calculations] at mem
    exact ⟨new,mem,same _ _⟩
  | ephemeral =>
    obtain ⟨row,there,rfl⟩ := mem_map.mp mem
    rw [ephemerals] at there
    rcases ephemeral_amended there with ⟨kept,-⟩ | ⟨old,inside,found,rfl⟩
    · exact ⟨row.job,mem_map_of_mem kept,same _ _⟩
    exact ⟨old.job,mem_map_of_mem inside,moved old inside found⟩
end

theorem follows_calculation (rests : ∀ job, Rests job (change job))
    (calculations : after.calculations = amend Calculation.id before.calculations target (Calculation.map change))
    (ephemerals : after.ephemerals = before.ephemerals) : Follows Rests before after := by
  refine follows_calculations (fun _ _ rests => rests.id) (fun _ => ⟨rfl,Or.inl rfl⟩) (fun row _ => ?_) calculations ephemerals
  split
  · exact rests row.job
  · exact ⟨rfl,Or.inl rfl⟩

theorem follows_ephemeral (rests : ∀ job, Rests job (change job) ∧ ((change job).leaseToken = none ∨ change job = job))
    (ephemerals : after.ephemerals = amend Ephemeral.id before.ephemerals target (Ephemeral.map change))
    (calculations : after.calculations = before.calculations) : Follows Rests before after := by
  refine follows_ephemerals (fun _ _ rests => rests.id) (fun _ => ⟨rfl,Or.inl rfl⟩) (fun row _ => ?_) ephemerals calculations
  split
  · exact ⟨(rests row.job).1,rfl,(rests row.job).2⟩
  · exact ⟨⟨rfl,Or.inl rfl⟩,rfl,Or.inr rfl⟩

theorem claimed_marked (active : job.status.active) : Marked job (job.claimed owner token expires) := by
  refine ⟨rfl,fun _ => active,fun concluded => ?_⟩
  rcases concluded with complete | ⟨failed,-⟩
  · cases complete
  cases failed

theorem renewed_marked (job : Job) (lease : Option Int) : Marked job { job with leaseExpiresAt := lease } :=
  ⟨rfl,fun active => active,fun _ => ⟨rfl,rfl⟩⟩

theorem finished_rests (job : Job) (resultJson errorCode : Option String) : Rests job (job.finished resultJson errorCode) := by
  refine ⟨rfl,Or.inr ?_⟩
  show (if errorCode.isSome then Status.failed else Status.complete).active = false
  split
  · rfl
  rfl

def Arrives (event : Event) (before after : World) : Prop :=
  ∀ lane, ∀ new ∈ jobs after.database lane,
    (∃ old ∈ jobs before.database lane, Moved event lane old new) ∨ (before.minted ≤ new.id ∧ new.status = .queued)

theorem Related.arrives (moved : Related (Moved event) before.database after.database) : Arrives event before after :=
  fun lane new mem => Or.inl (moved lane new mem)

theorem oldestQueued_queued (found : oldestQueued rows = some job) : job ∈ rows ∧ job.status = .queued := by
  have mem : job ∈ ordered (rows.filter fun job => decide (job.status = .queued)) := List.mem_of_head? found
  have inside : job ∈ rows.filter fun job => decide (job.status = .queued) :=
    (perm_insertionSort precedes _).mem_iff.mp mem
  obtain ⟨there,queued⟩ := mem_filter.mp inside
  exact ⟨there,of_decide_eq_true queued⟩

def swept (database : Database) (time : Int) : Database :=
  { database with calculations := database.calculations.map (Calculation.map (Job.interrupted time)) }

def staleCancelled (measurements : List Measurement) (row : Calculation) : Calculation :=
  if row.job.status = .queued ∧ current measurements row = false then
    row.map fun job => { job with authority := false, status := .cancelled }
  else row

theorem cancelEphemeral_settles : Settles database (cancelEphemeral database scopeKey pageHash jobId) := by
  refine settles_ephemerals (fun row _ => ?_) rfl rfl
  obtain ⟨settled,token⟩ := cancelJob_settled _ row.job
  exact ⟨settled,rfl,token⟩

theorem settles_filtered :
    Settles database { database with calculations := database.calculations.filter keep } where
  calculations row mem := ⟨row,(mem_filter.mp mem).1,.refl⟩
  ephemerals row mem := ⟨row,mem,.refl,rfl,Or.inr rfl⟩
  calculationIds := List.Sublist.map _ filter_sublist
  ephemeralIds := List.Sublist.refl _

theorem swept_settles : Settles database (swept database time) :=
  settles_calculations (fun row _ => (interrupted_settled time row.job).1) rfl rfl

theorem staleCancelled_settled (row : Calculation) : Settled row.job (staleCancelled measurements row).job := by
  unfold staleCancelled
  split
  · exact ⟨rfl,Or.inr ⟨Or.inr rfl,Or.inl rfl,Or.inl rfl⟩⟩
  exact .refl

inductive CalculationClaim (database : Database) (owner : String) (token : Nat) (time : Int) (after : Database) : Prop where
  | settles (settles : Settles database after)
  | starts (middle : Database) (target : Nat) (settles : Settles database middle)
      (ephemerals : middle.ephemerals = database.ephemerals)
      (calculations : after.calculations = amend Calculation.id middle.calculations target
        (Calculation.map fun row => row.claimed owner token (time+leaseDuration)))
      (others : after.ephemerals = middle.ephemerals)
      (dead : ∀ row ∈ database.ephemerals, running row.job = true → alive row time = false)
      (idle : ∀ row ∈ middle.calculations, running row.job = false)
      (queued : ∃ row ∈ middle.calculations, row.id = target ∧ row.job.status = .queued)

theorem claimCalculation_cases (database : Database) (owner : String) (token : Nat) (time : Int) :
    CalculationClaim database owner token time (claimCalculation database owner token time) := by
  unfold claimCalculation
  dsimp only
  split
  · exact .settles .refl
  rename_i free
  have dead : ∀ row ∈ database.ephemerals, running row.job → alive row time = false := by
    intro row mem runs
    cases living : alive row time with
    | false => rfl
    | true =>
      refine absurd (any_eq_true.mpr ⟨row,mem,?_⟩) free
      unfold running at runs
      rw [runs,Bool.true_and]
      exact living
  split
  · exact .settles swept_settles
  rename_i idle
  split
  · exact .settles swept_settles
  have settles : Settles database { swept database time with
        calculations := (swept database time).calculations.map (staleCancelled database.measurements) } :=
    swept_settles.trans (settles_calculations (fun row _ => staleCancelled_settled row) rfl rfl)
  split
  · exact .settles settles
  rename_i job found
  obtain ⟨mem,queued⟩ := oldestQueued_queued found
  obtain ⟨row,there,rfl⟩ := mem_map.mp mem
  refine .starts _ row.job.id settles rfl rfl rfl dead ?_ ⟨row,there,rfl,queued⟩
  intro _ inside
  obtain ⟨old,here,rfl⟩ := mem_map.mp inside
  cases runs : running (staleCancelled database.measurements old).job with
  | false => rfl
  | true =>
    have same : (staleCancelled database.measurements old).job = old.job := (staleCancelled_settled old).rests.runs runs
    rw [same] at runs
    exact absurd (any_eq_true.mpr ⟨old,here,runs⟩) idle

inductive EphemeralClaim (database : Database) (owner : String) (token : Nat) (leased : Int) (after : Database) : Prop where
  | settles (settles : Settles database after)
  | starts (middle : Database) (target : Nat) (settles : Settles database middle)
      (ephemerals : after.ephemerals = amend Ephemeral.id middle.ephemerals target (Ephemeral.map fun row => row.claimed owner token (leased+leaseDuration)))
      (others : after.calculations = middle.calculations)
      (idle : ∀ row ∈ middle.ephemerals, running row.job = false)
      (quiet : ∀ row ∈ middle.calculations, running row.job = false)
      (queued : ∃ row ∈ middle.ephemerals, row.id = target ∧ row.job.status = .queued)

theorem claimEphemeral_cases (database : Database) (owner : String) (token : Nat) (pruned time leased : Int) :
    EphemeralClaim database owner token leased (claimEphemeral database owner token pruned time leased) := by
  unfold claimEphemeral
  have settles : Settles database { prune database pruned with
        ephemerals := (prune database pruned).ephemerals.map (Ephemeral.map (Job.interrupted time)) } := by
    refine prune_settles.trans (settles_ephemerals (fun row _ => ?_) rfl rfl)
    obtain ⟨settled,token⟩ := interrupted_settled time row.job
    exact ⟨settled,rfl,token⟩
  dsimp only
  split
  · exact .settles settles
  rename_i idle
  rw [Bool.or_eq_true,not_or] at idle
  split
  · exact .settles settles
  split
  · exact .settles settles
  rename_i job found
  obtain ⟨mem,queued⟩ := oldestQueued_queued found
  obtain ⟨row,there,rfl⟩ := mem_map.mp mem
  refine .starts _ row.job.id settles rfl rfl ?_ ?_ ⟨row,there,rfl,queued⟩
  · intro other inside
    cases runs : running other.job with
    | false => rfl
    | true => exact absurd (any_eq_true.mpr ⟨other,inside,runs⟩) idle.2
  intro other inside
  cases runs : running other.job with
  | false => rfl
  | true => exact absurd (any_eq_true.mpr ⟨other,inside,runs⟩) idle.1

-- The UPDATE of an ephemeral heartbeat reaches a running job whose lease has run
-- out since the live check, while a measurement calculation runs.
def revives (world : World) : Event → Bool
  | .heartbeat checked _ => decide (checked.lane = .ephemeral)
      && (world.database.ephemerals.any fun row => decide (row.id = checked.id) && running row.job
        && !expiresAfter row.job.leaseExpiresAt world.now && decide (row.expiresAt > world.now))
      && world.database.calculations.any fun row => running row.job
  | _ => false

def InTime (world : World) (event : Event) : Prop := revives world event = false

structure Kept (event : Event) (before after : World) : Prop where
  inv : Inv after
  arrives : Arrives event before after
  minted : before.minted ≤ after.minted
  clock : before.now ≤ after.now

section
variable (valid : Inv before) (settles : Settles before.database middle)
include valid settles

theorem Inv.settled (clock : before.now ≤ now) : Inv { before with database := middle, now := now } :=
  valid.followed (fun _ _ settled => settled.rests) settles clock (le_refl _)

theorem Inv.related : Related (Moved event) before.database middle := (Related.refl fun _ _ => .refl).marked (settles.marked valid.blank)
end

theorem Kept.settled (valid : Inv before) (settles : Settles before.database after.database)
    (clock : before.now ≤ after.now) (minted : before.minted ≤ after.minted) : Kept event before after where
  inv := valid.followed (fun _ _ settled => settled.rests) settles clock minted
  arrives := (valid.related settles).arrives
  minted := minted
  clock := clock

theorem Kept.claimedCalculation (valid : Inv before) (time : Int) (past : time ≤ before.now) :
    Kept event before { before with
      database := claimCalculation before.database owner before.minted time
      minted := before.minted+1 } := by
  rcases claimCalculation_cases before.database owner before.minted time with
    settles | ⟨middle,target,settles,ephemerals,calculations,others,dead,idle,queued⟩
  · exact .settled valid settles (le_refl _) (le_succ _)
  obtain ⟨row,there,rfl,waiting⟩ := queued
  have between := valid.settled settles (le_refl _)
  have only : ∀ other ∈ middle.calculations, other.id = row.id → other.job.status.active := by
    intro _ inside same
    rw [between.calculationKeys.unique inside there same,waiting]
    rfl
  refine ⟨?_,?_,le_succ _,le_refl _⟩
  · refine between.startCalculation calculations others rfl (le_succ _) (fun _ => rfl) (fun _ => rfl) idle only ?_
    intro other inside runs
    have there : other ∈ before.database.ephemerals := ephemerals ▸ inside
    cases living : alive other before.now with
    | false => rfl
    | true =>
      have earlier := dead other there runs
      rw [alive_sooner past living] at earlier
      cases earlier
  exact ((valid.related settles).marked (related_calculation (fun _ _ => .refl) calculations others
    fun other inside same => claimed_marked (only other inside same))).arrives

theorem Kept.claimedEphemeral (valid : Inv before) (clock : before.now ≤ leased) :
    Kept event before { before with
      database := claimEphemeral before.database owner before.minted pruned time leased
      now := leased
      minted := before.minted+1 } := by
  rcases claimEphemeral_cases before.database owner before.minted pruned time leased with
    settles | ⟨middle,target,settles,ephemerals,others,idle,quiet,queued⟩
  · exact .settled valid settles clock (le_succ _)
  obtain ⟨row,there,rfl,waiting⟩ := queued
  have between := valid.settled settles (le_refl _)
  have only : ∀ other ∈ middle.ephemerals, other.id = row.id → other.job.status.active := by
    intro _ inside same
    rw [between.ephemeralKeys.unique inside there same,waiting]
    rfl
  refine ⟨?_,?_,le_succ _,clock⟩
  · exact between.startEphemeral ephemerals others (le_succ _) (fun _ => rfl) (fun _ => rfl) (fun _ => rfl)
      idle quiet only
  exact ((valid.related settles).marked (related_ephemeral (fun _ _ => .refl) ephemerals others
    fun other inside same => claimed_marked (only other inside same))).arrives

theorem Related.renewed (related : Related (fun _ => Marked) before.database after.database) : Arrives event before after :=
  ((Related.refl fun _ _ => .refl).marked related).arrives

theorem Kept.heartbeat (valid : Inv before) (inTime : InTime before (.heartbeat checked time)) :
    Kept event before { before with
      database := heartbeat before.database checked time
      checked := before.checked.erase checked } := by
  unfold MeasurementLanes.heartbeat
  cases lane : checked.lane with
  | calculation =>
    refine ⟨?_,?_,le_refl _,le_refl _⟩
    · refine valid.renewCalculation rfl rfl rfl rfl fun job => ?_
      split
      · exact ⟨_,rfl⟩
      exact ⟨job.leaseExpiresAt,rfl⟩
    refine Related.renewed (related_calculation (fun _ _ => .refl) rfl rfl fun row _ _ => ?_)
    split
    · exact renewed_marked _ _
    exact .refl
  | ephemeral =>
    refine ⟨?_,?_,le_refl _,le_refl _⟩
    · refine valid.renewEphemeral rfl rfl rfl rfl ?_
      intro row mem same runs late ahead calculation inside
      cases runsToo : running calculation.job with
      | false => rfl
      | true =>
        have first : (before.database.ephemerals.any fun row => decide (row.id = checked.id) && running row.job
            && !expiresAfter row.job.leaseExpiresAt before.now && decide (row.expiresAt > before.now)) := by
          refine any_eq_true.mpr ⟨row,mem,?_⟩
          rw [decide_eq_true same,runs,late,decide_eq_true ahead]
          rfl
        have second : (before.database.calculations.any fun row => running row.job) :=
          any_eq_true.mpr ⟨calculation,inside,runsToo⟩
        have both : revives before (.heartbeat checked time) := by
          show (decide (checked.lane = .ephemeral) && _ && _) = true
          rw [decide_eq_true lane,first,second]
          rfl
        rw [inTime] at both
        cases both
    exact Related.renewed (related_ephemeral (fun _ _ => .refl) rfl rfl fun row _ _ => renewed_marked _ _)

theorem Kept.finishedCalculation (valid : Inv before) (clock : before.now ≤ time) :
    Kept (.finishCalculation target owner token resultJson errorCode time) before { before with
      database := finishCalculation before.database target owner token resultJson errorCode time
      now := time } := by
  unfold MeasurementLanes.finishCalculation
  split
  · rename_i living
    refine ⟨?_,?_,le_refl _,clock⟩
    · refine valid.followed (fun _ _ rests => rests) ?_ clock (le_refl _)
      refine follows_calculation (fun job => ?_) rfl rfl
      split
      · exact finished_rests job resultJson errorCode
      exact ⟨rfl,Or.inl rfl⟩
    -- The row that is written is the one the live check of the transaction saw.
    obtain ⟨seen,there,found⟩ := any_eq_true.mp living
    simp only [Bool.and_eq_true,decide_eq_true_eq] at found
    obtain ⟨⟨⟨named,holds⟩,-⟩,-⟩ := found
    refine Related.arrives ?_
    refine related_calculation (fun _ _ => .refl) rfl rfl ?_
    intro row mem same
    have one : row = seen := valid.calculationKeys.unique mem there (same.trans named.symm)
    split
    · refine ⟨rfl,fun active => (finished_rests row.job resultJson errorCode).active active ▸ active,fun _ => ?_⟩
      exact Or.inr ⟨rfl,same.symm,one ▸ holds⟩
    exact .refl
  exact .settled valid .refl clock (le_refl _)

theorem Kept.finishedEphemeral (valid : Inv before) :
    Kept (.finishEphemeral checked resultJson errorCode) before { before with
      database := finishEphemeral before.database checked.id checked.token resultJson errorCode
      checked := before.checked.erase checked } := by
  refine ⟨?_,?_,le_refl _,le_refl _⟩
  · refine valid.followed (fun _ _ rests => rests) ?_ (le_refl _) (le_refl _)
    refine follows_ephemeral (fun job => ?_) rfl rfl
    split
    · exact ⟨finished_rests job resultJson errorCode,Or.inl rfl⟩
    exact ⟨⟨rfl,Or.inl rfl⟩,Or.inr rfl⟩
  refine Related.arrives ?_
  refine related_ephemeral (fun _ _ => .refl) rfl rfl ?_
  intro row mem same
  split
  · rename_i held
    have runs := valid.tokens row mem (by rw [held]; exact fun none_ => nomatch none_)
    refine ⟨rfl,fun active => (finished_rests row.job resultJson errorCode).active active ▸ active,fun _ => ?_⟩
    exact Or.inr ⟨rfl,same.symm,of_decide_eq_true runs,held⟩
  exact .refl

theorem enqueueCalculation_cases (added : enqueueCalculation database jobId measurementId revision attached parent counted time = some after) :
    ∃ middle row, Settles database middle ∧ Fresh row.job jobId ∧ after = { middle with calculations := middle.calculations++[row] } := by
  unfold enqueueCalculation at added
  simp only [bind_eq_bind,bind_eq_some_iff,Option.pure_def,bind_none] at added
  obtain ⟨_,-,added⟩ := added
  split at added
  · cases added
  split at added
  · cases added
  split at added
  · cases added
  obtain ⟨_,-,same⟩ := bind_eq_some_iff.mp added
  cases same
  refine ⟨{ database with calculations := database.calculations.filter _ },_,?_,⟨rfl,rfl,rfl,rfl⟩,rfl⟩
  exact settles_filtered

theorem enqueueEphemeral_cases (added : enqueueEphemeral database jobId scopeKey pageHash measurementId expiresAt pruned time = some after) :
    ∃ middle row, Settles database middle ∧ Fresh row.job jobId ∧ after = { middle with ephemerals := middle.ephemerals++[row] } := by
  unfold enqueueEphemeral at added
  simp only [bind_eq_bind,Option.pure_def,bind_none] at added
  split at added
  · cases added
  split at added
  · cases added
  split at added
  · cases added
  cases added
  exact ⟨prune database pruned,_,prune_settles,⟨rfl,rfl,rfl,rfl⟩,rfl⟩

theorem Kept.added (valid : Inv before) (settles : Settles before.database middle) (fresh : Fresh job before.minted) (inv : Inv after)
    (held : ∀ lane, ∀ new ∈ jobs after.database lane, new ∈ jobs middle lane ∨ new = job) (clock : before.now ≤ after.now)
    (minted : before.minted ≤ after.minted) : Kept event before after := by
  refine ⟨inv,fun lane new mem => ?_,minted,clock⟩
  rcases held lane new mem with old | rfl
  · exact Or.inl (valid.related settles lane new old)
  · exact Or.inr ⟨le_of_eq fresh.id.symm,fresh.status⟩

theorem Kept.addedCalculation (valid : Inv before) (clock : before.now ≤ time)
    (added : enqueueCalculation before.database before.minted measurementId revision attached parent counted time = some database) :
    Kept event before { before with database := database, now := time, minted := before.minted+1 } := by
  obtain ⟨middle,_,settles,fresh,rfl⟩ := enqueueCalculation_cases added
  refine .added valid settles fresh ((valid.settled settles clock).addCalculation fresh rfl rfl rfl rfl) ?_ clock (le_succ _)
  intro lane _ mem
  cases lane with
  | calculation =>
    unfold jobs at mem
    rw [map_append] at mem
    exact mem_snoc.mp mem
  | ephemeral => exact Or.inl mem

theorem Kept.addedEphemeral (valid : Inv before) (clock : before.now ≤ time)
    (added : enqueueEphemeral before.database before.minted scopeKey pageHash measurementId expiresAt pruned time = some database) :
    Kept event before { before with database := database, now := time, minted := before.minted+1 } := by
  obtain ⟨middle,_,settles,fresh,rfl⟩ := enqueueEphemeral_cases added
  refine .added valid settles fresh ((valid.settled settles clock).addEphemeral fresh rfl rfl rfl rfl) ?_ clock (le_succ _)
  intro lane _ mem
  cases lane with
  | calculation => exact Or.inl mem
  | ephemeral =>
    unfold jobs at mem
    rw [map_append] at mem
    exact mem_snoc.mp mem

theorem step_kept (valid : Inv before) (step : Step before event after) (inTime : InTime before event) : Kept event before after := by
  unfold Step at step
  cases event with
  | tick time =>
    dsimp only [advance] at step
    split at step
    · rename_i clock
      cases step
      exact .settled valid .refl clock (le_refl _)
    cases step
  | enqueueCalculation measurementId revision attached parent counted time =>
    dsimp only [advance] at step
    split at step
    · rename_i clock
      split at step
      · rename_i database added
        cases step
        exact .addedCalculation valid (le_trans clock.1 clock.2) added
      cases step
      exact .settled valid .refl (le_trans clock.1 clock.2) (le_refl _)
    cases step
  | cancelCalculation =>
    cases step
    exact .settled valid cancelCalculation_settles (le_refl _) (le_refl _)
  | claimCalculation owner time =>
    dsimp only [advance] at step
    split at step
    · rename_i past
      cases step
      exact .claimedCalculation valid time past
    cases step
  | liveCheck =>
    dsimp only [advance] at step
    split at step
    · cases step
      exact .settled valid .refl (le_refl _) (le_refl _)
    cases step
  | heartbeat =>
    dsimp only [advance] at step
    split at step
    · cases step
      exact .heartbeat valid inTime
    cases step
  | finishCalculation target owner token resultJson errorCode time =>
    dsimp only [advance] at step
    split at step
    · rename_i clock
      cases step
      exact .finishedCalculation valid clock
    cases step
  | finishEphemeral =>
    dsimp only [advance] at step
    split at step
    · cases step
      exact .finishedEphemeral valid
    cases step
  | prune =>
    dsimp only [advance] at step
    split at step
    · cases step
      exact .settled valid prune_settles (le_refl _) (le_refl _)
    cases step
  | enqueueEphemeral scopeKey pageHash measurementId expiresAt pruned time =>
    dsimp only [advance] at step
    split at step
    · rename_i clock
      split at step
      · rename_i database added
        cases step
        exact .addedEphemeral valid (le_trans clock.1 clock.2) added
      cases step
      exact .settled valid .refl (le_trans clock.1 clock.2) (le_refl _)
    cases step
  | cancelEphemeral =>
    cases step
    exact .settled valid cancelEphemeral_settles (le_refl _) (le_refl _)
  | claimEphemeral owner pruned time leased =>
    dsimp only [advance] at step
    split at step
    · rename_i clock
      cases step
      exact .claimedEphemeral valid (le_trans clock.1 (le_trans clock.2.1 clock.2.2))
    cases step
  | revise =>
    cases step
    exact .settled valid revise_settles (le_refl _) (le_refl _)
  | erase =>
    cases step
    exact .settled valid erase_settles (le_refl _) (le_refl _)
  | measurements | lanes =>
    cases step
    exact .settled valid ⟨Settles.refl.1,Settles.refl.2,Settles.refl.3,Settles.refl.4⟩ (le_refl _) (le_refl _)

def Exclusive (world : World) : Prop :=
  ∀ lane target owner token, live world.database lane target owner token world.now = true →
    ∀ lane' target' owner' token', live world.database lane' target' owner' token' world.now = true →
      lane = lane' ∧ target = target'

theorem live_calculation (living : live database .calculation target owner token time) : ∃ row ∈ database.calculations, row.id = target ∧ running row.job := by
  obtain ⟨row,there,found⟩ := any_eq_true.mp living
  simp only [Job.holds,Bool.and_eq_true,decide_eq_true_eq] at found
  exact ⟨row,there,found.1.1.1,decide_eq_true found.1.1.2.1.1⟩

theorem live_ephemeral (living : live database .ephemeral target owner token time) :
    ∃ row ∈ database.ephemerals, row.id = target ∧ running row.job ∧ alive row time := by
  obtain ⟨row,there,found⟩ := any_eq_true.mp living
  simp only [Job.holds,Bool.and_eq_true,decide_eq_true_eq] at found
  refine ⟨row,there,found.1.1.1,decide_eq_true found.1.1.2.1.1,?_⟩
  unfold alive
  rw [found.1.2,decide_eq_true found.2]
  rfl

theorem Inv.apart_live (valid : Inv world) (left : live world.database .calculation target owner token world.now)
    (right : live world.database .ephemeral target' owner' token' world.now) : False := by
  obtain ⟨row,mem,-,runs⟩ := live_calculation left
  obtain ⟨other,inside,-,also_,living⟩ := live_ephemeral right
  have dead := valid.apart row mem runs other inside also_
  rw [living] at dead
  cases dead

theorem Inv.exclusive (valid : Inv world) : Exclusive world := by
  intro lane _ _ _ left lane' _ _ _ right
  cases lane with
  | calculation =>
    cases lane' with
    | calculation =>
      obtain ⟨row,mem,rfl,runs⟩ := live_calculation left
      obtain ⟨other,inside,rfl,also_⟩ := live_calculation right
      exact ⟨rfl,congrArg Calculation.id (valid.oneCalculation row mem other inside runs also_)⟩
    | ephemeral => exact (valid.apart_live left right).elim
  | ephemeral =>
    cases lane' with
    | calculation => exact (valid.apart_live right left).elim
    | ephemeral =>
      obtain ⟨row,mem,rfl,runs,-⟩ := live_ephemeral left
      obtain ⟨other,inside,rfl,also_,-⟩ := live_ephemeral right
      exact ⟨rfl,congrArg Ephemeral.id (valid.oneEphemeral row mem other inside runs also_)⟩

-- A job that is complete, or failed with a result, after a call was so before
-- it, or the call is a finish by the holder of its lease token.
def ConcludedByHolder (taken : Transition World Event) : Prop :=
  ∀ lane, ∀ new ∈ jobs taken.after.database lane, Concluded new →
    ∃ old ∈ jobs taken.before.database lane, old.id = new.id ∧
      ((old.status = new.status ∧ old.resultJson = new.resultJson) ∨ Finishes taken.event lane old)

def StaysOver (earlier later : World) : Prop :=
  ∀ lane, ∀ old ∈ jobs earlier.database lane, old.status.active = false →
    ∀ new ∈ jobs later.database lane, new.id = old.id → new.status.active = false

structure LanesSafe (history : List (Transition World Event)) (world : World) : Prop where
  exclusive : Exclusive world
  concluded : ∀ taken ∈ history, ConcludedByHolder taken
  spent : history.Pairwise fun earlier later => StaysOver earlier.after later.after

theorem Inv.fresh (valid : Inv world) (mem : job ∈ jobs world.database lane) : job.id < world.minted := by
  cases lane with
  | calculation =>
    obtain ⟨row,there,rfl⟩ := mem_map.mp mem
    exact valid.calculationsFresh row there
  | ephemeral =>
    obtain ⟨row,there,rfl⟩ := mem_map.mp mem
    exact valid.ephemeralsFresh row there

theorem Kept.concluded (kept : Kept event before after) : ConcludedByHolder ⟨before,event,after⟩ := by
  intro lane new mem concluded
  rcases kept.arrives lane new mem with ⟨old,there,moved⟩ | ⟨-,queued⟩
  · refine ⟨old,there,moved.id.symm,?_⟩
    rcases moved.concluded concluded with ⟨status,result⟩ | finish
    · exact Or.inl ⟨status.symm,result.symm⟩
    exact Or.inr finish
  unfold Concluded at concluded
  rw [queued] at concluded
  rcases concluded with complete | ⟨failed,-⟩
  · cases complete
  cases failed

structure Retired (earlier : World) (world : World) : Prop where
  minted : earlier.minted ≤ world.minted
  fresh : ∀ lane, ∀ job ∈ jobs earlier.database lane, job.id < earlier.minted
  spent : StaysOver earlier world

theorem Inv.retired (valid : Inv world) : Retired world world := by
  refine ⟨le_refl _,fun lane job mem => valid.fresh mem,?_⟩
  intro lane _ there rest _ mem same
  cases lane with
  | calculation =>
    obtain ⟨_,here,rfl⟩ := mem_map.mp there
    obtain ⟨_,inside,rfl⟩ := mem_map.mp mem
    rw [valid.calculationKeys.unique inside here same]
    exact rest
  | ephemeral =>
    obtain ⟨_,here,rfl⟩ := mem_map.mp there
    obtain ⟨_,inside,rfl⟩ := mem_map.mp mem
    rw [valid.ephemeralKeys.unique inside here same]
    exact rest

theorem Retired.step (retired : Retired earlier before) (kept : Kept event before after) : Retired earlier after := by
  refine ⟨le_trans retired.minted kept.minted,retired.fresh,?_⟩
  intro lane old there rest new mem same
  rcases kept.arrives lane new mem with ⟨middle,inside,moved⟩ | ⟨late,-⟩
  · have spent := retired.spent lane old there rest middle inside (moved.id.symm.trans same)
    cases active : new.status.active with
    | false => rfl
    | true =>
      rw [moved.active active] at spent
      cases spent
  -- A new id is above every id there was.
  have low := retired.fresh lane old there
  have minted := retired.minted
  omega

structure Followed (history : List (Transition World Event)) (world : World) : Prop where
  inv : Inv world
  concluded : ∀ taken ∈ history, ConcludedByHolder taken
  spent : history.Pairwise fun earlier later => StaysOver earlier.after later.after
  retired : ∀ taken ∈ history, Retired taken.after world

theorem run_followed (path : Runs (Recorded (Guarded Step InTime)) .initial history world) : Followed history world := by
  refine path.preserves_history Followed ?_ ⟨initial_inv,?_,List.Pairwise.nil,?_⟩
  · intro earlier _ taken _ followed recorded
    obtain ⟨rfl,rfl,step,inTime⟩ := recorded
    have kept := step_kept followed.inv step inTime
    have later : ∀ one ∈ earlier, Retired one.after taken.after := fun one mem =>
      (followed.retired one mem).step kept
    refine ⟨kept.inv,?_,?_,?_⟩
    · intro one mem
      rcases mem_snoc.mp mem with old | rfl
      · exact followed.concluded one old
      exact kept.concluded
    · refine pairwise_append.mpr ⟨followed.spent,pairwise_singleton _ _,?_⟩
      intro one mem _ new
      cases mem_singleton.mp new
      exact (later one mem).spent
    intro one mem
    rcases mem_snoc.mp mem with old | rfl
    · exact later one old
    exact kept.inv.retired
  · intro _ mem
    cases mem
  intro _ mem
  cases mem

theorem lanes_exclude (path : Runs (Recorded (Guarded Step InTime)) .initial history world) : LanesSafe history world := by
  have followed := run_followed path
  exact ⟨followed.inv.exclusive,followed.concluded,followed.spent⟩

def inTime (world : World) (event : Event) : Option World := if revives world event then none else advance world event

theorem inTime_guarded (path : Runs (Recorded fun s e t => inTime s e = some t) .initial history world) :
    Runs (Recorded (Guarded Step InTime)) .initial history world := by
  refine path.mono ?_
  intro before taken after recorded
  obtain ⟨start,stop,step⟩ := recorded
  unfold inTime at step
  split at step
  · cases step
  rename_i met
  exact ⟨start,stop,step,Bool.eq_false_iff.mpr met⟩

def inTurn : List Event := [
  .measurements [⟨"m",1,false⟩],
  .enqueueCalculation "m" 1 none none 0 0,
  .enqueueEphemeral "scope" "page" "m" 3600000 0 0,
  .claimEphemeral "west" 0 0 0,
  .liveCheck .ephemeral 1 "west" 2 .heartbeat 0,
  .tick 60000,
  .heartbeat ⟨.ephemeral,1,"west",2,.heartbeat⟩ 60000,
  .claimCalculation "east" 60000,
  .liveCheck .ephemeral 1 "west" 2 (.finish (some "area") none) 60000,
  .finishEphemeral ⟨.ephemeral,1,"west",2,.finish (some "area") none⟩ (some "area") none,
  .claimCalculation "east" 60000,
  .finishCalculation 0 "east" 4 (some "volume") none 61000]

def inTurnWorld : World := (follow inTime .initial inTurn).getD .initial

theorem lanes_exclude_example : LanesSafe (tracked inTime .initial inTurn) inTurnWorld :=
  lanes_exclude (inTime_guarded (Runs.of_tracked (by decide +kernel)))

def revived : List Event := [
  .measurements [⟨"m",1,false⟩],
  .enqueueCalculation "m" 1 none none 0 0,
  .enqueueEphemeral "scope" "page" "m" 3600000 0 0,
  .claimEphemeral "west" 0 0 0,
  .tick 89999,
  .liveCheck .ephemeral 1 "west" 2 .heartbeat 89999,
  .tick 90000,
  .claimCalculation "east" 90000,
  .heartbeat ⟨.ephemeral,1,"west",2,.heartbeat⟩ 90000]

theorem ephemeral_revived : ¬∀ history world, Runs (Recorded Step) .initial history world → LanesSafe history world := by
  intro safe
  have ran : (follow advance .initial revived).isSome = true := by decide +kernel
  obtain ⟨world,reached⟩ := isSome_iff_exists.mp ran
  have exclusive := (safe _ _ (Runs.of_tracked reached)).exclusive
  have state : (follow advance .initial revived).getD .initial = world := by rw [reached]; rfl
  subst state
  have both := exclusive .calculation 0 "east" 3 (by decide +kernel) .ephemeral 1 "west" 2 (by decide +kernel)
  cases both.1
end LedgeTopOps.MeasurementExclusion
