import LedgeTopOps.MeasurementLanes
import LedgeTopOps.StepRuns

namespace LedgeTopOps.MeasurementExclusion
open List hiding after
open KeyedRows StepRuns MeasurementLanes

def jobs (database : Database) : Lane → List Job
  | .calculation => database.calculations.map Calculation.job
  | .ephemeral => database.ephemerals.map Ephemeral.job

structure Settled (old new : Job) : Prop where
  id : new.id = old.id
  moved : new = old ∨ (new.leaseToken = none ∨ new.leaseToken = old.leaseToken) ∧
    (new.resultJson = old.resultJson ∨ new.resultJson = none) ∧
    (new.status = .cancelled ∨ (new.status = .failed ∧ old.status = .running))

theorem Settled.refl : Settled job job := ⟨rfl,Or.inl rfl⟩

theorem Settled.trans (left : Settled old middle) (right : Settled middle new) : Settled old new := by
  refine ⟨right.id.trans left.id,?_⟩
  rcases left.moved with rfl | ⟨token,result,status⟩
  · exact right.moved
  rcases right.moved with rfl | ⟨laterToken,laterResult,laterStatus⟩
  · exact Or.inr ⟨token,result,status⟩
  refine Or.inr ⟨?_,?_,?_⟩
  · rcases laterToken with none_ | same
    · exact Or.inl none_
    · rw [same]
      exact token
  · rcases laterResult with same | none_
    · rw [same]
      exact result
    · exact Or.inr none_
  rcases laterStatus with cancelled | ⟨failed,running⟩
  · exact Or.inl cancelled
  rcases status with cancelled | ⟨spent,-⟩
  · rw [cancelled] at running
    cases running
  rw [spent] at running
  cases running

structure Rests (old new : Job) : Prop where
  id : new.id = old.id
  moved : new = old ∨ new.status.active = false

theorem Settled.rests (settled : Settled old new) : Rests old new := by
  refine ⟨settled.id,?_⟩
  rcases settled.moved with same | ⟨-,-,cancelled | ⟨failed,-⟩⟩
  · exact Or.inl same
  · exact Or.inr (by rw [cancelled]; rfl)
  exact Or.inr (by rw [failed]; rfl)

theorem Rests.active (rests : Rests old new) (active : new.status.active) : new = old := by
  rcases rests.moved with same | spent
  · exact same
  rw [spent] at active
  cases active

structure Follows (moves : Job → Job → Prop) (before after : Database) : Prop where
  calculations : ∀ new ∈ after.calculations, ∃ old ∈ before.calculations, moves old.job new.job
  ephemerals : ∀ new ∈ after.ephemerals, ∃ old ∈ before.ephemerals, moves old.job new.job ∧
    new.expiresAt = old.expiresAt ∧ (new.job.leaseToken = none ∨ new.job = old.job)
  calculationIds : (after.calculations.map Calculation.id).Sublist (before.calculations.map Calculation.id)
  ephemeralIds : (after.ephemerals.map Ephemeral.id).Sublist (before.ephemerals.map Ephemeral.id)

abbrev Settles := Follows Settled

theorem Settles.refl : Settles database database where
  calculations row mem := ⟨row,mem,.refl⟩
  ephemerals row mem := ⟨row,mem,.refl,rfl,Or.inr rfl⟩
  calculationIds := Sublist.refl _
  ephemeralIds := Sublist.refl _

theorem Settles.trans (left : Settles before middle) (right : Settles middle after) : Settles before after where
  calculations new mem := by
    obtain ⟨mid,there,second⟩ := right.calculations new mem
    obtain ⟨old,inside,one⟩ := left.calculations mid there
    exact ⟨old,inside,one.trans second⟩
  ephemerals new mem := by
    obtain ⟨mid,there,second,expires,token⟩ := right.ephemerals new mem
    obtain ⟨old,inside,one,sooner,earlier⟩ := left.ephemerals mid there
    refine ⟨old,inside,one.trans second,expires.trans sooner,?_⟩
    rcases token with none_ | same
    · exact Or.inl none_
    rw [same]
    exact earlier
  calculationIds := right.calculationIds.trans left.calculationIds
  ephemeralIds := right.ephemeralIds.trans left.ephemeralIds

section
variable {moves : Job → Job → Prop} (ids : ∀ old new, moves old new → new.id = old.id) (same : ∀ job, moves job job)
include ids same

theorem follows_calculations {change : Calculation → Calculation} (moved : ∀ row ∈ before.calculations, moves row.job (change row).job)
    (calculations : after.calculations = before.calculations.map change) (ephemerals : after.ephemerals = before.ephemerals) :
    Follows moves before after where
  calculations new mem := by
    rw [calculations] at mem
    obtain ⟨old,there,rfl⟩ := mem_map.mp mem
    exact ⟨old,there,moved old there⟩
  ephemerals new mem := by
    rw [ephemerals] at mem
    exact ⟨new,mem,same _,rfl,Or.inr rfl⟩
  calculationIds := by
    have kept : before.calculations.map (Calculation.id ∘ change) = before.calculations.map Calculation.id :=
      map_congr_left fun row mem => ids _ _ (moved row mem)
    rw [calculations,map_map,kept]
  ephemeralIds := by
    rw [ephemerals]

theorem follows_ephemerals {change : Ephemeral → Ephemeral}
    (moved : ∀ row ∈ before.ephemerals, moves row.job (change row).job ∧ (change row).expiresAt = row.expiresAt ∧
      ((change row).job.leaseToken = none ∨ (change row).job = row.job))
    (ephemerals : after.ephemerals = before.ephemerals.map change) (calculations : after.calculations = before.calculations) :
    Follows moves before after where
  calculations new mem := by
    rw [calculations] at mem
    exact ⟨new,mem,same _⟩
  ephemerals new mem := by
    rw [ephemerals] at mem
    obtain ⟨old,there,rfl⟩ := mem_map.mp mem
    exact ⟨old,there,moved old there⟩
  calculationIds := by
    rw [calculations]
  ephemeralIds := by
    have kept : before.ephemerals.map (Ephemeral.id ∘ change) = before.ephemerals.map Ephemeral.id :=
      map_congr_left fun row mem => ids _ _ (moved row mem).1
    rw [ephemerals,map_map,kept]
end

theorem settles_calculations {change : Calculation → Calculation} (settled : ∀ row ∈ before.calculations, Settled row.job (change row).job)
    (calculations : after.calculations = before.calculations.map change) (ephemerals : after.ephemerals = before.ephemerals) :
    Settles before after := follows_calculations (fun _ _ settled => settled.id) (fun _ => .refl) settled calculations ephemerals

theorem settles_ephemerals {change : Ephemeral → Ephemeral} (settled : ∀ row ∈ before.ephemerals, Settled row.job (change row).job ∧
      (change row).expiresAt = row.expiresAt ∧ ((change row).job.leaseToken = none ∨ (change row).job = row.job))
    (ephemerals : after.ephemerals = before.ephemerals.map change) (calculations : after.calculations = before.calculations) :
    Settles before after := follows_ephemerals (fun _ _ settled => settled.id) (fun _ => .refl) settled ephemerals calculations

theorem interrupted_settled (time : Int) (job : Job) :
    Settled job (job.interrupted time) ∧ ((job.interrupted time).leaseToken = none ∨ job.interrupted time = job) := by
  unfold Job.interrupted
  split
  · rename_i expired
    exact ⟨⟨rfl,Or.inr ⟨Or.inl rfl,Or.inl rfl,Or.inr ⟨rfl,expired.1⟩⟩⟩,Or.inl rfl⟩
  exact ⟨.refl,Or.inr rfl⟩

theorem cancelJob_settled (matched : Bool) (job : Job) :
    Settled job (cancelJob matched job) ∧ ((cancelJob matched job).leaseToken = none ∨ cancelJob matched job = job) := by
  unfold cancelJob
  split
  · exact ⟨⟨rfl,Or.inr ⟨Or.inl rfl,Or.inl rfl,Or.inl rfl⟩⟩,Or.inl rfl⟩
  exact ⟨.refl,Or.inr rfl⟩

theorem cancelCalculation_settles : Settles database (cancelCalculation database measurementId jobId) :=
  settles_calculations (fun row _ => (cancelJob_settled _ row.job).1) rfl rfl

theorem revise_settles : Settles database (revise database measurementId) := by
  refine settles_calculations (fun row _ => ?_) rfl rfl
  show Settled row.job (if row.job.measurementId = measurementId ∧ row.job.status.active then _ else _)
  split
  · exact ⟨rfl,Or.inr ⟨Or.inr rfl,Or.inl rfl,Or.inl rfl⟩⟩
  exact .refl

theorem erase_settles : Settles database (erase database measurementId) := by
  refine settles_calculations (fun row _ => ?_) rfl rfl
  show Settled row.job (if row.job.measurementId = measurementId then _ else _)
  split
  · exact ⟨rfl,Or.inr ⟨Or.inr rfl,Or.inr rfl,Or.inl rfl⟩⟩
  exact .refl

theorem prune_settles : Settles database (prune database time) where
  calculations row mem := ⟨row,mem,.refl⟩
  ephemerals row mem := ⟨row,(mem_filter.mp mem).1,.refl,rfl,Or.inr rfl⟩
  calculationIds := Sublist.refl _
  ephemeralIds := Sublist.map _ filter_sublist

def running (job : Job) : Bool := decide (job.status = .running)

def alive (row : Ephemeral) (time : Int) : Bool :=
  expiresAfter row.job.leaseExpiresAt time && decide (row.expiresAt > time)

theorem alive_sooner (ordered : time ≤ later) (living : alive row later) : alive row time := by
  unfold alive expiresAfter at living ⊢
  cases lease : row.job.leaseExpiresAt with
  | none => simp [lease] at living
  | some =>
    simp only [lease,Option.any_some,Bool.and_eq_true,decide_eq_true_eq] at living ⊢
    omega

structure Inv (world : World) : Prop where
  calculationKeys : Keyed Calculation.id world.database.calculations
  ephemeralKeys : Keyed Ephemeral.id world.database.ephemerals
  calculationsFresh : ∀ row ∈ world.database.calculations, row.id < world.minted
  ephemeralsFresh : ∀ row ∈ world.database.ephemerals, row.id < world.minted
  oneCalculation : ∀ row ∈ world.database.calculations, ∀ other ∈ world.database.calculations,
    running row.job = true → running other.job = true → row = other
  oneEphemeral : ∀ row ∈ world.database.ephemerals, ∀ other ∈ world.database.ephemerals,
    running row.job = true → running other.job = true → row = other
  apart : ∀ row ∈ world.database.calculations, running row.job = true →
    ∀ other ∈ world.database.ephemerals, running other.job = true → alive other world.now = false
  tokens : ∀ row ∈ world.database.ephemerals, row.job.leaseToken ≠ none → running row.job = true
  blankCalculations : ∀ row ∈ world.database.calculations, row.job.status.active = true → row.job.resultJson = none
  blankEphemerals : ∀ row ∈ world.database.ephemerals, row.job.status.active = true → row.job.resultJson = none

theorem initial_inv : Inv .initial := by
  constructor <;> first | exact nodup_nil | (intro row mem; cases mem)

theorem active_of_running (runs : running job) : job.status.active := by
  rw [of_decide_eq_true runs]
  rfl

theorem Rests.runs (rests : Rests old new) (runs : running new) : new = old :=
  rests.active (active_of_running runs)

structure Fresh (job : Job) (minted : Nat) : Prop where
  id : job.id = minted
  status : job.status = .queued
  token : job.leaseToken = none
  result : job.resultJson = none

theorem Fresh.idle (fresh : Fresh job minted) : running job = false := by
  unfold running
  rw [fresh.status]
  rfl

-- What holds of the jobs of either table.
structure Tidy (job : ρ → Job) (rows : List ρ) (minted : Nat) : Prop where
  keys : Keyed (fun row => (job row).id) rows
  fresh : ∀ row ∈ rows, (job row).id < minted
  one : ∀ row ∈ rows, ∀ other ∈ rows, running (job row) → running (job other) → row = other
  blank : ∀ row ∈ rows, (job row).status.active → (job row).resultJson = none

theorem Inv.calculations (valid : Inv world) : Tidy Calculation.job world.database.calculations world.minted :=
  ⟨valid.calculationKeys,valid.calculationsFresh,valid.oneCalculation,valid.blankCalculations⟩

theorem Inv.ephemerals (valid : Inv world) : Tidy Ephemeral.job world.database.ephemerals world.minted :=
  ⟨valid.ephemeralKeys,valid.ephemeralsFresh,valid.oneEphemeral,valid.blankEphemerals⟩

theorem Inv.of (calculations : Tidy Calculation.job world.database.calculations world.minted)
    (ephemerals : Tidy Ephemeral.job world.database.ephemerals world.minted)
    (apart : ∀ row ∈ world.database.calculations, running row.job → ∀ other ∈ world.database.ephemerals, running other.job → alive other world.now = false)
    (tokens : ∀ row ∈ world.database.ephemerals, row.job.leaseToken ≠ none → running row.job) : Inv world :=
  ⟨calculations.keys,ephemerals.keys,calculations.fresh,ephemerals.fresh,calculations.one,ephemerals.one,apart,tokens,
    calculations.blank,ephemerals.blank⟩

section
variable {job : ρ → Job} (tidy : Tidy job rows minted)
include tidy

theorem Tidy.moved (keys : Keyed (fun row => (job row).id) later) (clock : minted ≤ more)
    (source : ∀ row ∈ later, ∃ old ∈ rows, (job row).id = (job old).id ∧
      ((job row).status.active → (job old).status.active ∧ (job row).resultJson = (job old).resultJson))
    (one : ∀ row ∈ later, ∀ other ∈ later, running (job row) → running (job other) → (job row).id = (job other).id) : Tidy job later more where
  keys := keys
  fresh row mem := by
    obtain ⟨old,there,same,-⟩ := source row mem
    rw [same]
    exact (tidy.fresh old there).trans_le clock
  one row mem other inside runs also_ := keys.unique mem inside (one row mem other inside runs also_)
  blank row mem active := by
    obtain ⟨old,there,-,carries⟩ := source row mem
    obtain ⟨active,same⟩ := carries active
    exact same.trans (tidy.blank old there active)

theorem Tidy.kept (keys : Keyed (fun row => (job row).id) later) (clock : minted ≤ more)
    (source : ∀ row ∈ later, ∃ old ∈ rows, (job row).id = (job old).id ∧ (running (job row) → running (job old)) ∧
      ((job row).status.active → (job old).status.active ∧ (job row).resultJson = (job old).resultJson)) : Tidy job later more := by
  refine tidy.moved keys clock (fun row mem => ?_) fun row mem other inside runs also_ => ?_
  · obtain ⟨old,there,same,-,carries⟩ := source row mem
    exact ⟨old,there,same,carries⟩
  obtain ⟨old,there,same,first,-⟩ := source row mem
  obtain ⟨another,here,sameToo,second,-⟩ := source other inside
  rw [same,sameToo,tidy.one old there another here (first runs) (second also_)]

theorem Tidy.later (clock : minted ≤ more) : Tidy job rows more :=
  { tidy with fresh := fun row mem => (tidy.fresh row mem).trans_le clock }

theorem Tidy.start {change : ρ → ρ} (clock : minted ≤ more) (ids : ∀ row, (job (change row)).id = (job row).id)
    (results : ∀ row, (job (change row)).resultJson = (job row).resultJson) (idle : ∀ row ∈ rows, running (job row) = false)
    (queued : ∀ row ∈ rows, (job row).id = target → (job row).status.active) : Tidy job (amend (fun row => (job row).id) rows target change) more := by
  -- A row that runs afterwards is the one that was started.
  have started : ∀ row ∈ amend (fun row => (job row).id) rows target change, running (job row) → (job row).id = target := by
    intro row mem runs
    rcases mem_amend.mp mem with ⟨there,-⟩ | ⟨old,-,same,rfl⟩
    · rw [idle row there] at runs
      cases runs
    exact (ids old).trans same
  refine tidy.moved (tidy.keys.amend _ fun row _ _ => ids row) clock (fun row mem => ?_) fun row mem other inside runs also_ =>
    (started row mem runs).trans (started other inside also_).symm
  rcases mem_amend.mp mem with ⟨there,-⟩ | ⟨old,there,same,rfl⟩
  · exact ⟨row,there,rfl,fun active => ⟨active,rfl⟩⟩
  exact ⟨old,there,ids old,fun _ => ⟨queued old there same,results old⟩⟩

theorem Tidy.add (fresh : Fresh (job row) minted) : Tidy job (rows++[row]) (minted+1) where
  keys := tidy.keys.add fun old mem same => (tidy.fresh old mem).ne (same.trans fresh.id)
  fresh other mem := by
    rcases mem_snoc.mp mem with old | rfl
    · exact Nat.lt_succ_of_lt (tidy.fresh other old)
    · exact Nat.lt_succ_of_le fresh.id.le
  one one mem other inside runs also_ := by
    rcases mem_snoc.mp mem with old | rfl
    · rcases mem_snoc.mp inside with there | rfl
      · exact tidy.one one old other there runs also_
      · rw [fresh.idle] at also_
        cases also_
    · rw [fresh.idle] at runs
      cases runs
  blank other mem active := by
    rcases mem_snoc.mp mem with old | rfl
    · exact tidy.blank other old active
    · exact fresh.result
end

theorem Rests.carries (rests : Rests old new) : new.id = old.id ∧ (running new → running old) ∧
    (new.status.active → old.status.active ∧ new.resultJson = old.resultJson) :=
  ⟨rests.id,fun runs => rests.runs runs ▸ runs,fun active => rests.active active ▸ ⟨active,rfl⟩⟩

theorem Inv.followed (valid : Inv before) (rest : ∀ old new, moves old new → Rests old new) (settles : Follows moves before.database after.database)
    (clock : before.now ≤ after.now) (minted : before.minted ≤ after.minted) : Inv after := by
  refine .of (valid.calculations.kept (valid.calculationKeys.sublist settles.calculationIds) minted fun row mem => ?_)
    (valid.ephemerals.kept (valid.ephemeralKeys.sublist settles.ephemeralIds) minted fun row mem => ?_) ?_ ?_
  · obtain ⟨old,there,moved⟩ := settles.calculations row mem
    exact ⟨old,there,(rest _ _ moved).carries⟩
  · obtain ⟨old,there,moved,-⟩ := settles.ephemerals row mem
    exact ⟨old,there,(rest _ _ moved).carries⟩
  · intro row mem runs other inside also_
    obtain ⟨old,there,moved⟩ := settles.calculations row mem
    have settled := rest _ _ moved
    obtain ⟨another,here,movedToo,expires,-⟩ := settles.ephemerals other inside
    have settledToo := rest _ _ movedToo
    have same : alive other after.now = alive another after.now := by
      unfold alive
      rw [settledToo.runs also_,expires]
    have dead := valid.apart old there (settled.runs runs ▸ runs) another here (settledToo.runs also_ ▸ also_)
    rw [same]
    cases living : alive another after.now with
    | false => rfl
    | true =>
      rw [alive_sooner clock living] at dead
      cases dead
  intro row mem held
  obtain ⟨old,there,-,-,token⟩ := settles.ephemerals row mem
  rcases token with none_ | same
  · exact absurd none_ held
  rw [same] at held ⊢
  exact valid.tokens old there held

theorem calculation_amended (mem : row ∈ amend Calculation.id rows target (Calculation.map change)) :
    row ∈ rows ∧ row.id ≠ target ∨ ∃ old ∈ rows, old.id = target ∧ row = old.map change := by
  rcases mem_amend.mp mem with kept | ⟨old,there,same,rfl⟩
  · exact Or.inl kept
  exact Or.inr ⟨old,there,same,rfl⟩

theorem ephemeral_amended (mem : row ∈ amend Ephemeral.id rows target (Ephemeral.map change)) :
    row ∈ rows ∧ row.id ≠ target ∨ ∃ old ∈ rows, old.id = target ∧ row = old.map change := by
  rcases mem_amend.mp mem with kept | ⟨old,there,same,rfl⟩
  · exact Or.inl kept
  exact Or.inr ⟨old,there,same,rfl⟩

section
variable (valid : Inv before)
include valid

theorem Inv.startCalculation (calculations : after.database.calculations = amend Calculation.id before.database.calculations target (Calculation.map change))
    (ephemerals : after.database.ephemerals = before.database.ephemerals) (now : after.now = before.now)
    (minted : before.minted ≤ after.minted) (ids : ∀ job, (change job).id = job.id) (results : ∀ job, (change job).resultJson = job.resultJson)
    (idle : ∀ row ∈ before.database.calculations, running row.job = false)
    (queued : ∀ row ∈ before.database.calculations, row.id = target → row.job.status.active)
    (dead : ∀ row ∈ before.database.ephemerals, running row.job → alive row before.now = false) : Inv after := by
  refine .of (calculations ▸ valid.calculations.start minted (fun row => ids row.job) (fun row => results row.job) idle queued)
    (ephemerals ▸ valid.ephemerals.later minted) ?_ (ephemerals ▸ valid.tokens)
  intro _ _ _ other inside also_
  rw [ephemerals] at inside
  rw [now]
  exact dead other inside also_

theorem Inv.startEphemeral (ephemerals : after.database.ephemerals = amend Ephemeral.id before.database.ephemerals target (Ephemeral.map change))
    (calculations : after.database.calculations = before.database.calculations) (minted : before.minted ≤ after.minted) (ids : ∀ job, (change job).id = job.id)
    (results : ∀ job, (change job).resultJson = job.resultJson) (runs : ∀ job, running (change job))
    (idle : ∀ row ∈ before.database.ephemerals, running row.job = false) (quiet : ∀ row ∈ before.database.calculations, running row.job = false)
    (queued : ∀ row ∈ before.database.ephemerals, row.id = target → row.job.status.active) : Inv after := by
  refine .of (calculations ▸ valid.calculations.later minted)
    (ephemerals ▸ valid.ephemerals.start minted (fun row => ids row.job) (fun row => results row.job) idle queued) ?_ ?_
  · intro row mem first
    rw [calculations] at mem
    rw [quiet row mem] at first
    cases first
  intro row mem held
  rw [ephemerals] at mem
  rcases ephemeral_amended mem with ⟨there,-⟩ | ⟨old,_,_,rfl⟩
  · exact valid.tokens row there held
  exact runs old.job

theorem Inv.renewCalculation
    (calculations : after.database.calculations = amend Calculation.id before.database.calculations target (Calculation.map change))
    (ephemerals : after.database.ephemerals = before.database.ephemerals) (now : after.now = before.now)
    (minted : after.minted = before.minted) (renewed : ∀ job, ∃ lease, change job = { job with leaseExpiresAt := lease }) :
    Inv after := by
  have source : ∀ row ∈ after.database.calculations, ∃ old ∈ before.database.calculations, row.job.id = old.job.id ∧
      (running row.job → running old.job) ∧ (row.job.status.active → old.job.status.active ∧ row.job.resultJson = old.job.resultJson) := by
    intro row mem
    rw [calculations] at mem
    rcases calculation_amended mem with ⟨there,-⟩ | ⟨old,there,-,rfl⟩
    · exact ⟨row,there,rfl,id,fun active => ⟨active,rfl⟩⟩
    obtain ⟨_,same⟩ := renewed old.job
    refine ⟨old,there,?_⟩
    dsimp only [Calculation.map]
    rw [same]
    exact ⟨rfl,id,fun active => ⟨active,rfl⟩⟩
  refine .of (valid.calculations.kept ?_ minted.ge source) (by rw [ephemerals,minted]; exact valid.ephemerals) ?_ (ephemerals ▸ valid.tokens)
  · rw [calculations]
    refine valid.calculationKeys.amend _ fun row _ _ => ?_
    obtain ⟨_,same⟩ := renewed row.job
    simp only [Calculation.map,Calculation.id,same]
  intro row mem runs other inside also_
  obtain ⟨old,there,-,kept,-⟩ := source row mem
  rw [ephemerals] at inside
  rw [now]
  exact valid.apart old there (kept runs) other inside also_

theorem Inv.renewEphemeral
    (ephemerals : after.database.ephemerals = amend Ephemeral.id before.database.ephemerals target
      (Ephemeral.map fun job => { job with leaseExpiresAt := lease }))
    (calculations : after.database.calculations = before.database.calculations) (now : after.now = before.now)
    (minted : after.minted = before.minted)
    (inTime : ∀ row ∈ before.database.ephemerals, row.id = target → running row.job →
      expiresAfter row.job.leaseExpiresAt before.now = false → row.expiresAt > before.now →
      ∀ calculation ∈ before.database.calculations, running calculation.job = false) : Inv after := by
  refine .of (by rw [calculations,minted]; exact valid.calculations) (valid.ephemerals.kept ?_ minted.ge fun row mem => ?_) ?_ ?_
  · rw [ephemerals]
    exact valid.ephemeralKeys.amend _ fun row _ _ => rfl
  · rw [ephemerals] at mem
    rcases ephemeral_amended mem with ⟨there,-⟩ | ⟨old,there,-,rfl⟩
    · exact ⟨row,there,rfl,id,fun active => ⟨active,rfl⟩⟩
    exact ⟨old,there,rfl,id,fun active => ⟨active,rfl⟩⟩
  · intro row mem runs other inside also_
    rw [calculations] at mem
    rw [ephemerals] at inside
    rw [now]
    rcases ephemeral_amended inside with ⟨there,-⟩ | ⟨old,there,same,rfl⟩
    · exact valid.apart row mem runs other there also_
    have dead := valid.apart row mem runs old there also_
    by_cases expired : old.expiresAt > before.now
    · cases late : expiresAfter old.job.leaseExpiresAt before.now with
      | true =>
        unfold alive at dead
        rw [late,decide_eq_true expired] at dead
        cases dead
      | false =>
        rw [inTime old there same also_ late expired row mem] at runs
        cases runs
    unfold alive
    rw [show decide ((old.map fun job => { job with leaseExpiresAt := lease }).expiresAt > before.now) = false from
      decide_eq_false expired,Bool.and_false]
  intro row mem held
  rw [ephemerals] at mem
  rcases ephemeral_amended mem with ⟨there,-⟩ | ⟨old,there,-,rfl⟩
  · exact valid.tokens row there held
  exact valid.tokens old there held
end

theorem Inv.addCalculation (valid : Inv before) (fresh : Fresh row.job before.minted)
    (calculations : after.database.calculations = before.database.calculations++[row])
    (ephemerals : after.database.ephemerals = before.database.ephemerals) (now : after.now = before.now)
    (minted : after.minted = before.minted+1) : Inv after := by
  refine .of (by rw [calculations,minted]; exact valid.calculations.add fresh) (ephemerals ▸ valid.ephemerals.later (by omega)) ?_ (ephemerals ▸ valid.tokens)
  intro one mem runs other inside also_
  rw [calculations] at mem
  rw [ephemerals] at inside
  rw [now]
  rcases mem_snoc.mp mem with old | rfl
  · exact valid.apart one old runs other inside also_
  rw [fresh.idle] at runs
  cases runs

theorem Inv.addEphemeral (valid : Inv before) (fresh : Fresh row.job before.minted) (ephemerals : after.database.ephemerals = before.database.ephemerals++[row])
    (calculations : after.database.calculations = before.database.calculations) (now : after.now = before.now)
    (minted : after.minted = before.minted+1) : Inv after := by
  refine .of (calculations ▸ valid.calculations.later (by omega)) (by rw [ephemerals,minted]; exact valid.ephemerals.add fresh) ?_ ?_
  · intro one mem runs other inside also_
    rw [calculations] at mem
    rw [ephemerals] at inside
    rw [now]
    rcases mem_snoc.mp inside with old | rfl
    · exact valid.apart one mem runs other old also_
    rw [fresh.idle] at also_
    cases also_
  intro other mem held
  rw [ephemerals] at mem
  rcases mem_snoc.mp mem with old | rfl
  · exact valid.tokens other old held
  exact absurd fresh.token held
end LedgeTopOps.MeasurementExclusion
