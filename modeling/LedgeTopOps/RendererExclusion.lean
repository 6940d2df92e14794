import LedgeTopOps.RendererAttempts

namespace LedgeTopOps.RendererAttempts
open StepRuns

def Pc.attempt : Pc → Option Nat
  | .completeRead attempt | .completeHead attempt | .completeReject attempt | .completeWrite attempt | .heartbeatRead attempt
  | .heartbeatWrite attempt _ | .failRead attempt _ | .failWrite attempt _ | .jobWork attempt | .jobFail attempt _ _ | .jobReturn attempt _
  | .jobComplete attempt | .jobRaced attempt => some attempt
  | _ => none

-- A claim of the renderer API whose candidate has been claimed since it was read.
def Pc.spared (s : Store) : Pc → Bool
  | .claimLease read _ => s.issued.all (· ≤ read) || !s.matching (·.status = .pending)
  | _ => true

def spared (w : World) : Action → Bool
  | .reply index _ => match w.flows[index]? with
    | some pc => pc.spared w.store
    | none => true
  | _ => true

-- No number is given out twice; the attempt that is running has not ended.
structure Exclusive (s : Store) : Prop where
  distinct : s.issued.Nodup
  bounded : ∀ job, s.job = some job → ∀ number ∈ s.issued, number ≤ job.attempt
  ended : ∀ number ∈ s.ended, number ∈ s.issued
  running : ∀ job, s.job = some job → job.status = .processing → job.attempt ∈ s.issued ∧ job.attempt ∉ s.ended

inductive Effect (s t : Store) (pc : Pc) : Prop where
  | same (still : t = s)
  | claimed (old job : Job) (was : s.job = some old) (more : ∀ number ∈ s.issued, number < job.attempt) (becomes : t = s.claim job)
      (own : pc.attempt = none)
  | renewed (old job : Job) (was : s.job = some old) (becomes : t = s.write (some job)) (status : old.status = .processing ∧ job.status = .processing)
      (attempt : job.attempt = old.attempt) (own : pc.attempt = some old.attempt)
  | moved (old job : Job) (was : s.job = some old) (becomes : t = s.write (some job)) (status : job.status ≠ .processing) (attempt : old.attempt ≤ job.attempt)
      (own : ∀ attempt, pc.attempt = some attempt → old.status = .processing ∧ old.attempt = attempt)
  | removed (becomes : t = s.write none) (own : pc.attempt = none)

section
theorem done_effect (ran : done effect goes reply = some (t,after)) (good : Effect s effect pc) : Effect s t pc := by
  cases reply with
  | ok => cases ran; exact good
  | _ => cases ran

theorem asked_effect {going : Bool → Pc} (ran : asked s going reply = some (t,after)) : Effect s t pc := by
  cases reply with
  | flag => cases ran; exact .same rfl
  | ok | source | worked => cases ran

theorem running_job {job : Job} {attempt : Nat} (running : job.running attempt) : job.status = .processing ∧ job.attempt = attempt := by
  simpa [Job.running] using running

theorem update_moved {condition : Job → Bool} {change : Job → Job} (status : ∀ job, (change job).status ≠ .processing)
    (attempt : ∀ job, job.attempt ≤ (change job).attempt)
    (own : ∀ job attempt, condition job → pc.attempt = some attempt → job.status = .processing ∧ job.attempt = attempt) :
    Effect s (s.update condition change) pc := by
  unfold Store.update
  split
  · rename_i job is
    split
    · rename_i found
      exact .moved job (change job) is rfl (status job) (attempt job) fun number mine => own job number found mine
    exact .same rfl
  exact .same rfl

theorem current_own {attempt now : Nat} {job : Job} (found : job.current attempt now) (mine : some attempt = some number) :
    job.status = .processing ∧ job.attempt = number := by
  cases mine
  exact running_job (Bool.and_eq_true_iff.mp found).1

theorem call_effect (exclusive : Exclusive s) (spare : pc.spared s) (ran : pc.call s reply = some (t,after)) : Effect s t pc := by
  cases pc with
  | claimRead | jobRead | transientHead | expiredHead | publish => exact asked_effect ran
  | claimHead | completeHead | jobHead | jobWork =>
    have ran' := ran
    simp only [Pc.call] at ran'
    split at ran'
    all_goals first | (cases ran'; exact .same rfl) | cases ran'
  | claimReject | expiredExhaust | publishFailed =>
    exact done_effect ran (update_moved (fun _ => nofun) (fun _ => Nat.le_refl _) fun _ _ _ mine => by cases mine)
  | claimLease read video =>
    refine done_effect ran ?_
    split
    · rename_i job is
      split
      · rename_i pending
        refine .claimed job _ is (fun number mem => ?_) rfl rfl
        have spare' : (s.issued.all (· ≤ read) || !s.matching (·.status = .pending)) := spare
        have found : s.matching (·.status = .pending) := by rw [Store.matching,is]; exact decide_eq_true pending
        rw [found] at spare'
        have below : s.issued.all (· ≤ read) := by simpa only [Bool.not_true,Bool.or_false] using spare'
        exact Nat.lt_succ_of_le (of_decide_eq_true (List.all_eq_true.mp below number mem))
      exact .same rfl
    exact .same rfl
  | completeReject | completeWrite =>
    exact done_effect ran (update_moved (fun _ => nofun) (fun _ => Nat.le_refl _) fun _ _ found mine => current_own found mine)
  | heartbeatWrite attempt lease =>
    refine done_effect ran ?_
    unfold Store.update
    split
    · rename_i job is
      split
      · rename_i found
        obtain ⟨status,number⟩ := running_job (Bool.and_eq_true_iff.mp found).1
        exact .renewed job _ is rfl ⟨status,status⟩ rfl (by rw [number]; rfl)
      exact .same rfl
    exact .same rfl
  | failWrite =>
    refine done_effect ran (update_moved (fun job => ?_) (fun job => ?_) fun _ _ found mine => current_own found mine)
    · split <;> exact nofun
    split <;> exact Nat.le_refl _
  | jobClaim refused =>
    refine done_effect ran ?_
    split
    · rename_i job is
      split
      · exact .claimed job _ is (fun number mem => Nat.lt_succ_of_le (exclusive.bounded job is number mem)) rfl rfl
      exact .same rfl
    exact .same rfl
  | jobFail _ _ terminal =>
    refine done_effect ran (update_moved (fun job => ?_) (fun _ => Nat.le_refl _) fun job number found mine => ?_)
    · cases terminal <;> exact nofun
    cases mine; exact running_job found
  | jobReturn | jobComplete =>
    exact done_effect ran (update_moved (fun _ => nofun) (fun _ => Nat.le_refl _) fun job number found mine => by cases mine; exact running_job found)
  | transientClaim => exact done_effect ran (update_moved (fun _ => nofun) (fun _ => Nat.le_succ _) fun _ _ _ mine => by cases mine)
  | expiredRemove => exact done_effect ran (.removed rfl rfl)
  | expiredClaim =>
    simp only [Pc.call] at ran
    split at ran
    · cases ran
      split
      · exact update_moved (fun _ => nofun) (fun _ => Nat.le_refl _) fun _ _ _ mine => by cases mine
      exact .same rfl
    cases ran
  | halted => cases ran
  | _ => exact done_effect ran (.same rfl)
end

section
variable {s t : Store}

theorem write_ended (exclusive : Exclusive s) (job : Option Job) : ∀ number ∈ (s.write job).ended, number ∈ s.issued := by
  intro number mem
  unfold Store.write at mem
  split at mem
  · rename_i old is
    split at mem
    · rename_i ends
      obtain rfl | older := List.mem_cons.mp mem
      · exact (exclusive.running old is (of_decide_eq_true (Bool.and_eq_true_iff.mp ends).1)).1
      exact exclusive.ended number older
    exact exclusive.ended number mem
  exact exclusive.ended number mem

theorem write_same (was : s.job = some old) (running : job.running old.attempt) : (s.write (some job)).ended = s.ended := by
  unfold Store.write
  rw [was]
  exact if_neg (by simp [running])

theorem effect_exclusive (exclusive : Exclusive s) (effect : Effect s t pc) : Exclusive t := by
  cases effect with
  | same still => subst still; exact exclusive
  | claimed _ _ _ more becomes =>
    subst becomes
    refine ⟨List.nodup_cons.mpr ⟨fun mem => Nat.lt_irrefl _ (more _ mem),exclusive.distinct⟩,fun current is number mem => ?_,
      fun number mem => List.mem_cons_of_mem _ (write_ended exclusive _ number mem),fun current is _ => ?_⟩
    · cases is
      obtain rfl | older := List.mem_cons.mp mem
      · exact Nat.le_refl _
      exact Nat.le_of_lt (more number older)
    cases is
    exact ⟨.head _,fun mem => Nat.lt_irrefl _ (more _ (write_ended exclusive _ _ mem))⟩
  | renewed old job was becomes status attempt =>
    subst becomes
    have still : (s.write (some job)).ended = s.ended := write_same was (by simp [Job.running,status.2,attempt])
    refine ⟨exclusive.distinct,fun current is number mem => ?_,write_ended exclusive _,fun current is _ => ?_⟩
    · cases is
      rw [attempt]
      exact exclusive.bounded old was number mem
    cases is
    rw [still,attempt]
    exact exclusive.running old was status.1
  | moved old _ was becomes status attempt =>
    subst becomes
    refine ⟨exclusive.distinct,fun current is number mem => ?_,write_ended exclusive _,fun current is processing => ?_⟩
    · cases is
      exact Nat.le_trans (exclusive.bounded old was number mem) attempt
    cases is
    exact absurd processing status
  | removed becomes =>
    subst becomes
    have gone : ∀ {current : Job}, (s.write none).job = some current → False := by
      intro _ same
      cases same
    exact ⟨exclusive.distinct,fun _ is => (gone is).elim,write_ended exclusive _,fun _ is => (gone is).elim⟩

theorem effect_running (effect : Effect s t pc) {attempt : Nat} (mine : pc.attempt = some attempt) (changes : t.job ≠ s.job) :
    ∃ job, s.job = some job ∧ job.status = .processing ∧ job.attempt = attempt := by
  cases effect with
  | same still => exact absurd (by rw [still]) changes
  | claimed _ _ _ _ _ own | removed _ own => rw [own] at mine; cases mine
  | renewed old _ was _ status _ own =>
    rw [own] at mine
    cases mine
    exact ⟨old,was,status.1,rfl⟩
  | moved old _ was _ _ _ own =>
    obtain ⟨status,number⟩ := own attempt mine
    exact ⟨old,was,status,number⟩
end

def Step (w : World) (action : Action) (v : World) : Prop := next w action = some v

-- No two claims have one number, and a complete, fail or heartbeat that changes the row
-- is for the attempt that is running and has not ended.
structure Exclusion (w : World) : Prop where
  distinct : w.store.issued.Nodup
  accepted : ∀ (index : Nat) (reply : Reply) (v : World) (pc : Pc) (attempt : Nat), w.flows[index]? = some pc → pc.attempt = some attempt →
    Step w (.reply index reply) v → v.store.job ≠ w.store.job →
    attempt ∉ w.store.ended ∧ ∃ job, w.store.job = some job ∧ job.status = .processing ∧ job.attempt = attempt

theorem next_exclusive (exclusive : Exclusive w.store) (moved : next w action = some v) (spare : spared w action) : Exclusive v.store := by
  have present : ∀ {token : Nat} {pc : Pc}, w.present token pc = some v → Exclusive v.store := fun begun => by
    obtain ⟨_,same⟩ := Option.ite_none_right_eq_some.mp begun
    cases same
    exact exclusive
  cases action with
  | complete | heartbeat | fail => exact present moved
  | tick => cases moved; exact ⟨exclusive.distinct,exclusive.bounded,exclusive.ended,exclusive.running⟩
  | reply =>
    obtain ⟨_,here,ran⟩ := Option.bind_eq_some_iff.mp moved
    obtain ⟨⟨t,_⟩,called,same⟩ := Option.map_eq_some_iff.mp ran
    cases same
    exact effect_exclusive exclusive (call_effect exclusive (by simpa only [spared,here] using spare) called)
  | _ => cases moved; exact exclusive

theorem exclusive_exclusion (exclusive : Exclusive w.store) : Exclusion w := by
  refine ⟨exclusive.distinct,fun index reply v pc attempt here mine moved changes => ?_⟩
  obtain ⟨_,there,ran⟩ := Option.bind_eq_some_iff.mp moved
  cases here.symm.trans there
  obtain ⟨⟨t,_⟩,called,same⟩ := Option.map_eq_some_iff.mp ran
  cases same
  have spare : pc.spared w.store := by
    cases pc with
    | claimLease => cases mine
    | _ => rfl
  obtain ⟨job,is,status,number⟩ := effect_running (call_effect exclusive spare called) mine changes
  refine ⟨fun over' => ?_,job,is,status,number⟩
  rw [←number] at over'
  exact (exclusive.running job is status).2 over'

def World.unclaimed (now : Nat) (job : Job) : World := ⟨⟨now,some job,[],[]⟩,[],[]⟩

-- As long as no claim of the renderer API follows another claim that came between its
-- read and its UPDATE, attempts are exclusive.
theorem attempts_exclusive {now : Nat} {job : Job} {actions : List Action} {w : World} (idle : job.status ≠ .processing)
    (run : Runs (Guarded Step fun w action => spared w action = true) (World.unclaimed now job) actions w) : Exclusion w := by
  refine exclusive_exclusion (run.preserves (fun w => Exclusive w.store) (fun _ _ _ exclusive taken => next_exclusive exclusive taken.1 taken.2) ?_)
  have nothing : ∀ {number : Nat}, number ∈ ([] : List Nat) → False := nofun
  refine ⟨List.nodup_nil,fun _ _ _ member => (nothing member).elim,fun _ member => (nothing member).elim,fun current is processing => ?_⟩
  cases is
  exact absurd processing idle

def queued : Job := ⟨.pending,0,none,none,none,none⟩
def arrive (actions : List Action) : Option World := follow next (World.unclaimed 1000 queued) actions
def replies (flow : Nat) (answers : List Reply) : List Action := answers.map (.reply flow)

def takenOver : List Action :=
  .claim :: replies 0 [.flag true,.source .image,.ok]++.fail 1 (.other 0) :: replies 1 [.ok,.ok]++.tick 300 ::
    .process :: replies 2 [.flag true,.source .image,.ok,.worked .rendered,.ok]

def takenOverWorld : World := (arrive takenOver).getD (World.unclaimed 1000 queued)

theorem attempts_exclusive_example : takenOverWorld.store.issued = [2,1] ∧ takenOverWorld.store.ended = [2,1] ∧ Exclusion takenOverWorld :=
  have run : Runs (Guarded Step fun w action => spared w action = true) (World.unclaimed 1000 queued) takenOver takenOverWorld := Runs.of_checked rfl
  ⟨rfl,rfl,attempts_exclusive (by decide) run⟩

-- A claim whose candidate the queue consumer claims and fails before its UPDATE; its token is then accepted for a
-- failed attempt.
def overtaken : List Action :=
  .claim :: replies 0 [.flag true,.source .image]++.process :: replies 1 [.flag true,.source .image,.ok,.worked (.failed (.other 0) false),.ok]++replies 0 [.ok]

def accepted : List Action := overtaken++.fail 1 (.other 0) :: replies 2 [.ok]

theorem attempts_shared : (∃ w, arrive overtaken = some w ∧ w.store.issued = [1,1] ∧ ¬Exclusion w) ∧
    (∃ w v, arrive accepted = some w ∧ Step w (.reply 2 .ok) v ∧ w.store.ended = [1] ∧ v.store.job.map (·.status) = some .pending ∧ ¬Exclusion w) := by
  refine ⟨⟨_,rfl,rfl,fun exclusion => ?_⟩,⟨_,_,rfl,rfl,rfl,rfl,fun exclusion => ?_⟩⟩
  · exact absurd exclusion.distinct (by decide)
  exact absurd exclusion.distinct (by decide)
end LedgeTopOps.RendererAttempts
