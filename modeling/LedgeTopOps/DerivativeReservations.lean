import LedgeTopOps.KeyedRows
import LedgeTopOps.StepRuns

namespace LedgeTopOps.DerivativeReservations
open KeyedRows StepRuns Option

inductive DerivativeType where
  | ept | meshTiles | lodAudit
deriving DecidableEq

inductive Status where
  | pending | leased | complete | failed | cancelled
deriving DecidableEq

inductive JournalState where
  | reserved | building | verified | promoted | registered | terminal
deriving DecidableEq

structure Journal where
  state : JournalState
  leaseToken : Option Nat
  (reservedByteSize accountedByteSize : Nat)
deriving DecidableEq

-- A row of derivative_jobs with its journal, which is written in the same
-- transaction; registeredBytes is the total of the files of its asset.
structure Job where
  (id attemptId : Nat)
  type : DerivativeType
  optional : Bool
  status : Status
  leaseToken : Option Nat
  journal : Journal
  registeredBytes : Nat
deriving DecidableEq

def Status.live : Status → Bool
  | .pending | .leased => true
  | _ => false

def JournalState.accounted : JournalState → Bool
  | .reserved | .building | .verified | .promoted => true
  | .registered | .terminal => false

def Job.generated (job : Job) : Bool := decide (job.type ≠ .lodAudit)

def activeDerivativeReservationBytes (jobs : List Job) : Nat :=
  jobs.foldr (fun job bytes => (if job.journal.state.accounted then job.journal.accountedByteSize else 0) + bytes) 0

def liveReservationBytes (jobs : List Job) : Nat :=
  jobs.foldr (fun job bytes => (if job.status.live then job.journal.reservedByteSize else 0) + bytes) 0

-- persistDerivativeInputSnapshot on a journal that exists.
def Job.bind (job : Job) (bytes : Nat) : Option Job :=
  if job.journal.state = .reserved then
    some { job with journal := { job.journal with reservedByteSize := bytes, accountedByteSize := bytes } }
  else none

structure Spec where
  id : Nat
  type : DerivativeType
  optional : Bool
  bytes : Nat
  bound : Bool

def enqueueDerivative (attemptId : Nat) (jobs : List Job) (spec : Spec) : Option (List Job) :=
  match jobs.find? fun job => job.attemptId = attemptId ∧ job.type = spec.type with
  | none => if jobs.any fun job => job.id = spec.id then none else
    some (jobs++[⟨spec.id,attemptId,spec.type,spec.optional,.pending,none,⟨.reserved,none,spec.bytes,spec.bytes⟩,0⟩])
  | some job =>
    if spec.bound then (job.bind spec.bytes).map fun bound => amend Job.id jobs job.id fun _ => bound else some jobs

def Job.settle (job : Job) : Option Job := match job.leaseToken with
  | none => none
  | some token =>
    let actual := if job.generated then job.registeredBytes else 0
    if job.journal.state = .terminal then none else
    some { job with journal := { job.journal with leaseToken := some token, state := .registered, accountedByteSize := actual } }

def Job.terminalize (job : Job) : Job :=
  if job.journal.state = .registered then job else
  match job.leaseToken.or job.journal.leaseToken with
  | none => job
  | some token => { job with journal := { job.journal with leaseToken := some token, state := .terminal, accountedByteSize := 0 } }

def Job.reset (job : Job) : Job := { job with status := .pending, leaseToken := none }

def Job.reopen (job : Job) : Job :=
  if job.status = .pending ∧ job.journal.state ≠ .registered then
    { job with journal := ⟨.reserved,none,job.journal.reservedByteSize,job.journal.reservedByteSize⟩ }
  else job

-- The transactions. A call whose other checks fail (leases, deadlines, the
-- attempt, its output) writes nothing and is no event.
inductive Event where
  | completeIngestAndEnqueueDerivatives (attemptId : Nat) (specs : List Spec)
  | enqueueOptionalDerivatives (attemptId : Nat) (specs : List Spec)
  | activateImportedDerivativesForOperation (attemptId : Nat) (specs : List Spec)
  | persistDerivativeInputSnapshot (id bytes : Nat)
  | registerFiles (id bytes : Nat)
  | claimDerivative (id token : Nat)
  | terminalizeExhaustedDerivatives (ids : List Nat)
  | completeDerivativeAndMaybeReady (id : Nat)
  | completeOptionalDerivative (id : Nat)
  | failDerivative (id : Nat)
  | failOptionalDerivative (id : Nat)
  | cancelAttempt (attemptId : Nat)
  | retryOptionalDerivative (id : Nat)
  | retryDatasetOperation (attemptId : Nat)

def changing (jobs : List Job) (id : Nat) (status : Job → Bool) (change : Job → Option Job) : Option (List Job) :=
  (find Job.id jobs id).bind fun job => if status job then (change job).map fun changed => amend Job.id jobs id fun _ => changed else none

def leased (job : Job) : Bool := decide (job.status = .leased)

def next (jobs : List Job) : Event → Option (List Job)
  | .completeIngestAndEnqueueDerivatives attemptId specs => specs.foldlM (enqueueDerivative attemptId) jobs
  | .enqueueOptionalDerivatives attemptId specs => if specs.all Spec.optional then specs.foldlM (enqueueDerivative attemptId) jobs else none
  | .activateImportedDerivativesForOperation attemptId specs =>
    if specs.any Spec.optional then none else specs.foldlM (enqueueDerivative attemptId) jobs
  | .persistDerivativeInputSnapshot id bytes => changing jobs id (fun _ => true) fun job => job.bind bytes
  | .registerFiles id bytes => changing jobs id leased fun job => some { job with registeredBytes := bytes }
  | .claimDerivative id token =>
    changing jobs id (fun job => job.status.live) fun job => some { job with status := .leased, leaseToken := some token }
  | .terminalizeExhaustedDerivatives ids => some (jobs.map fun job =>
    if job.id ∈ ids ∧ job.status = .leased then { job with status := .failed }.terminalize else job)
  | .completeDerivativeAndMaybeReady id => changing jobs id leased fun job => job.settle.map fun settled => { settled with status := .complete }
  | .completeOptionalDerivative id =>
    changing jobs id (fun job => leased job && job.optional) fun job => some { job with status := .complete }
  | .failDerivative id => changing jobs id leased fun job => some { job with status := .failed }.terminalize
  | .failOptionalDerivative id => changing jobs id (fun job => leased job && job.optional) fun job => some { job with status := .failed }
  | .cancelAttempt attemptId => some (jobs.map fun job =>
    if job.attemptId = attemptId ∧ job.status.live then { job with status := .cancelled, leaseToken := none } else job)
  | .retryOptionalDerivative id =>
    changing jobs id (fun job => decide (job.status = .failed ∧ job.type = .ept) && job.optional) fun job => some job.reset
  | .retryDatasetOperation attemptId => some (jobs.map fun job => if job.attemptId ≠ attemptId then job else
    (if (job.status = .failed ∨ job.status = .cancelled) ∧ job.optional = false then job.reset else job).reopen)

def Step (jobs : List Job) (event : Event) (after : List Job) : Prop := next jobs event = some after

structure Accounted (jobs : List Job) : Prop where
  reservations : activeDerivativeReservationBytes jobs = liveReservationBytes jobs
  registered : ∀ job ∈ jobs, job.status = .complete → job.generated = true → job.journal.accountedByteSize = job.registeredBytes

-- No optional job ends through its own two calls, none is retried whose journal
-- was closed, and no attempt is cancelled that has a job to run.
def orderly (jobs : List Job) : Event → Bool
  | .completeOptionalDerivative _ | .failOptionalDerivative _ => false
  | .retryOptionalDerivative id => (find Job.id jobs id).all fun job => job.journal.state.accounted
  | .cancelAttempt attemptId => jobs.all fun job => decide (job.attemptId ≠ attemptId) || !job.status.live
  | _ => true

section
variable {job : Job} {jobs after : List Job} {specs : List Spec} {id bytes : Nat} {status : Job → Bool} {change : Job → Option Job}

structure Fits (job : Job) : Prop where
  live : job.status.live = true → job.journal.state.accounted = true ∧ job.journal.accountedByteSize = job.journal.reservedByteSize
  freed : job.status.live = false → job.journal.state.accounted = false
  leased : job.status = .leased → job.leaseToken.isSome = true
  settled : job.journal.state = .registered → job.status = .complete
  complete : job.status = .complete → job.generated = true → job.journal.accountedByteSize = job.registeredBytes

theorem accounted_of_fits (fits : ∀ job ∈ jobs, Fits job) : Accounted jobs := by
  refine ⟨?_,fun job mem => (fits job mem).complete⟩
  unfold activeDerivativeReservationBytes liveReservationBytes
  induction jobs with
  | nil => rfl
  | cons job _ ih =>
    obtain ⟨here,others⟩ := List.forall_mem_cons.mp fits
    rw [List.foldr_cons,List.foldr_cons,ih others]
    congr 1
    cases live : job.status.live with
    | true =>
      rw [(here.live live).1,(here.live live).2]
    | false =>
      rw [here.freed live]
      rfl

theorem changing_fits (fits : ∀ job ∈ jobs, Fits job) (changes : ∀ job changed, Fits job → status job → change job = some changed → Fits changed)
    (moved : changing jobs id status change = some after) : ∀ job ∈ after, Fits job := by
  obtain ⟨job,found,moved⟩ := bind_eq_some_iff.mp moved
  split at moved
  · rename_i suits
    obtain ⟨changed,done,rfl⟩ := map_eq_some_iff.mp moved
    intro other mem
    rcases mem_amend.mp mem with ⟨there,_⟩ | ⟨_,_,_,rfl⟩
    · exact fits other there
    exact changes job changed (fits job (find_some found).1) suits done
  cases moved

theorem map_fits {change : Job → Job} (fits : ∀ job ∈ jobs, Fits job) (changes : ∀ job ∈ jobs, Fits job → Fits (change job)) :
    ∀ job ∈ jobs.map change, Fits job := by
  intro _ mem
  obtain ⟨old,there,rfl⟩ := List.mem_map.mp mem
  exact changes old there (fits old there)

theorem bind_fits (fits : Fits job) (bound : job.bind bytes = some other) : Fits other := by
  obtain ⟨is,same⟩ := ite_none_right_eq_some.mp bound
  cases same
  refine ⟨fun live => ⟨(fits.live live).1,rfl⟩,fits.freed,fits.leased,fits.settled,fun complete => ?_⟩
  have closed := fits.freed (by rw [complete]; rfl)
  rw [is] at closed
  cases closed

theorem enqueueDerivative_fits (fits : ∀ job ∈ jobs, Fits job) (spec : Spec) (ran : enqueueDerivative attemptId jobs spec = some after) :
    ∀ job ∈ after, Fits job := by
  unfold enqueueDerivative at ran
  split at ran
  · split at ran
    · cases ran
    · cases ran
      intro job mem
      rcases mem_snoc.mp mem with old | rfl
      · exact fits job old
      exact ⟨fun _ => ⟨rfl,rfl⟩,fun ends => (by cases ends),fun is => (by cases is),fun is => (by cases is),fun is => (by cases is)⟩
  rename_i job found
  split at ran
  · obtain ⟨_,done,rfl⟩ := map_eq_some_iff.mp ran
    intro other mem
    rcases mem_amend.mp mem with ⟨there,_⟩ | ⟨_,_,_,rfl⟩
    · exact fits other there
    exact bind_fits (fits job (List.mem_of_find?_eq_some found)) done
  cases ran
  exact fits

theorem enqueued_fits (fits : ∀ job ∈ jobs, Fits job) (ran : specs.foldlM (enqueueDerivative attemptId) jobs = some after) : ∀ job ∈ after, Fits job := by
  induction specs generalizing jobs with
  | nil =>
    cases ran
    exact fits
  | cons spec _ ih =>
    obtain ⟨_,first,ran⟩ := bind_eq_some_iff.mp ran
    exact ih (enqueueDerivative_fits fits spec first) ran

theorem terminalize_fits (fits : Fits job) (is : job.status = .leased) : Fits { job with status := .failed }.terminalize := by
  obtain ⟨_,held⟩ := isSome_iff_exists.mp (fits.leased is)
  have active := (fits.live (by rw [is]; rfl)).1
  have open_ : job.journal.state ≠ .registered := fun same => by
    rw [same] at active
    cases active
  unfold Job.terminalize
  rw [if_neg open_,held]
  exact ⟨fun live => (by cases live),fun _ => rfl,fun leased => (by cases leased),fun is => (by cases is),fun complete => (by cases complete)⟩

theorem settle_fits (settled : job.settle = some other) : Fits { other with status := .complete } := by
  unfold Job.settle at settled
  split at settled
  · cases settled
  rename_i token held
  dsimp only at settled
  split at settled
  · cases settled
  cases settled
  refine ⟨fun live => (by cases live),fun _ => rfl,fun leased => (by cases leased),fun _ => rfl,fun _ generated => ?_⟩
  exact if_pos generated

theorem reopen_fits (fits : Fits job) : Fits (if (job.status = .failed ∨ job.status = .cancelled) ∧ job.optional = false then job.reset else job).reopen := by
  unfold Job.reopen
  split
  · rename_i ended
    have unsettled : job.journal.state ≠ .registered := fun same => by
      have complete := fits.settled same
      rcases ended.1 with is | is <;> (rw [is] at complete; cases complete)
    rw [if_pos ⟨rfl,unsettled⟩]
    exact ⟨fun _ => ⟨rfl,rfl⟩,fun ends => (by cases ends),fun is => (by cases is),fun is => (by cases is),fun is => (by cases is)⟩
  split
  · rename_i pending
    have is := pending.1
    exact ⟨fun _ => ⟨rfl,rfl⟩,fun ends => (by rw [is] at ends; cases ends),fits.leased,fun same => (by cases same),
      fun complete => (by rw [is] at complete; cases complete)⟩
  exact fits

theorem step_fits (fits : ∀ job ∈ jobs, Fits job) (guarded : orderly jobs event) (moved : Step jobs event after) : ∀ job ∈ after, Fits job := by
  cases event with
  | completeIngestAndEnqueueDerivatives => exact enqueued_fits fits moved
  | enqueueOptionalDerivatives => exact enqueued_fits fits (ite_none_right_eq_some.mp moved).2
  | activateImportedDerivativesForOperation => exact enqueued_fits fits (ite_none_left_eq_some.mp moved).2
  | persistDerivativeInputSnapshot => exact changing_fits fits (fun job changed here _ bound => bind_fits here bound) moved
  | registerFiles =>
    refine changing_fits fits (fun job changed here is same => ?_) moved
    cases same
    have running := of_decide_eq_true is
    exact ⟨here.live,here.freed,here.leased,here.settled,fun complete => (by rw [running] at complete; cases complete)⟩
  | claimDerivative =>
    refine changing_fits fits (fun job changed here live same => ?_) moved
    cases same
    have open_ : job.journal.state ≠ .registered := fun same => by
      have active := (here.live live).1
      rw [same] at active
      cases active
    exact ⟨fun _ => here.live live,fun ends => (by cases ends),fun _ => rfl,fun same => absurd same open_,fun complete => (by cases complete)⟩
  | terminalizeExhaustedDerivatives ids =>
    cases moved
    refine map_fits fits fun job _ here => ?_
    split
    · rename_i ends
      exact terminalize_fits here ends.2
    exact here
  | completeDerivativeAndMaybeReady =>
    refine changing_fits fits (fun job changed _ _ done => ?_) moved
    obtain ⟨_,ran,rfl⟩ := map_eq_some_iff.mp done
    exact settle_fits ran
  | failDerivative =>
    refine changing_fits fits (fun job changed here is same => ?_) moved
    cases same
    exact terminalize_fits here (of_decide_eq_true is)
  | cancelAttempt =>
    cases moved
    refine map_fits fits fun job there here => ?_
    rw [if_neg fun ends => ?_]
    · exact here
    · have idle := List.all_eq_true.mp guarded job there
      rw [ends.1,ends.2] at idle
      simp at idle
  | retryOptionalDerivative =>
    obtain ⟨job,found,moved⟩ := bind_eq_some_iff.mp moved
    have active : job.journal.state.accounted := by simpa only [orderly,found,all_some] using guarded
    obtain ⟨suits,_⟩ := ite_none_right_eq_some.mp moved
    have failed := (of_decide_eq_true (Bool.and_eq_true_iff.mp suits).1).1
    rw [(fits job (find_some found).1).freed (by rw [failed]; rfl)] at active
    cases active
  | retryDatasetOperation =>
    cases moved
    refine map_fits fits fun job _ here => ?_
    split
    · exact here
    exact reopen_fits here
  | _ => cases guarded
end

theorem reservations_released (history : List Event) (final : List Job)
    (run : Runs (Guarded Step fun jobs event => orderly jobs event = true) [] history final) : Accounted final :=
  accounted_of_fits (run.preserves (fun jobs => ∀ job ∈ jobs, Fits job) (fun _ _ _ fits taken => step_fits fits taken.2 taken.1)
    (List.forall_mem_nil _))

theorem reservations_released_example : ∃ final, final ≠ [] ∧ Accounted final :=
  ⟨[⟨0,0,.ept,false,.complete,some 5,⟨.registered,some 5,100,70⟩,70⟩],by simp,
    reservations_released [.completeIngestAndEnqueueDerivatives 0 [⟨0,.ept,false,100,true⟩],.claimDerivative 0 5,.registerFiles 0 70,
      .completeDerivativeAndMaybeReady 0] _ (Runs.of_checked (by decide))⟩

theorem cancelled_reservation_stays : ∃ final, Runs Step [] [.completeIngestAndEnqueueDerivatives 0 [⟨0,.meshTiles,false,100,true⟩],.cancelAttempt 0]
    final ∧ ¬Accounted final := by
  refine ⟨[⟨0,0,.meshTiles,false,.cancelled,none,⟨.reserved,none,100,100⟩,0⟩],Runs.of_follow (by decide),fun accounted => ?_⟩
  have same := accounted.reservations
  revert same
  decide
end LedgeTopOps.DerivativeReservations
