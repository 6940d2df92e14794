import LedgeTopOps.TransferSchedule

namespace LedgeTopOps.QueueRoundTrip
open List JsonTree TransferRecord QueueDocument KeyedRows StepRuns TransferQueue TransferEffects TransferSchedule

def growth : List QueuedTransfer → Nat
  | [] => 0
  | job :: rest => (if job.state = .running then if job.recoveryRequired then 8 else 7 else 0) + growth rest

-- Every state that was written can be read, is read as the committed jobs, and
-- leaves a later open for the same owner nothing to fail on.
def Reopens (platform : Platform) (world : World) : Prop :=
  ∀ content, world.file = some content → ∃ committed, world.committed = some committed ∧
    readState platform committed.owner content = .ok committed.jobs ∧
    ∀ found, openingOwner found = some committed.owner → found.directory = true → found.disk = true →
      ∃ queue, (openAsync platform { world with queue := none } found).queue = some queue ∧
        queue.jobs = committed.jobs.map interrupted

def Roomy (owner : Owner) (values : List QueuedTransfer) : Prop :=
  maximumStateBytes < size (document owner values) ∨ size (document owner values) + growth values ≤ maximumStateBytes

structure Readable (platform : Platform) (localPath : Text) (resolved : ResolvedQueuedDownload) : Prop where
  version : isNullOrWhiteSpace resolved.remoteVersion = false
  destination : canonicalStoredDestination platform localPath = true

def StorableCall (platform : Platform) (queue : Queue) (call : Call) (fresh : Guid) : Prop :=
  match call.request,call.phase with
  | .enqueue resourceReference localPath,.acting (some resolved) =>
    queue.jobs.length < maximumJobs →
    (∀ old ∈ queue.jobs, old.resourceReference = resourceReference → old.destination = localPath → old.state.isOver = true) →
      Readable platform localPath resolved ∧
        Roomy queue.owner (queue.jobs++[enqueued fresh resourceReference localPath resolved])
  | .start reservation,.acting none =>
    generation queue.toSchedule reservation.jobId = reservation.stopGeneration → queue.activeJob = none →
    ∀ job ∈ find QueuedTransfer.jobId queue.jobs reservation.jobId, job.state.isOver = false →
      Roomy queue.owner (amend QueuedTransfer.jobId queue.jobs reservation.jobId begun)
  | _,_ => True

def Storable (platform : Platform) (world : World) (event : Event) : Prop :=
  ∀ queue ∈ world.queue, queue.storageFault = none → match event with
  | .act id fresh _ => ∀ call ∈ queue.calls, call.id = id → StorableCall platform queue call fresh
  | .stopAsync jobId requested _ _ _ =>
    queue.activeJob ≠ some jobId → ∀ job ∈ find QueuedTransfer.jobId queue.jobs jobId, job.state.isOver = false →
      Roomy queue.owner (amend QueuedTransfer.jobId queue.jobs jobId (restricted requested))
  | _ => True

instance (owner : Owner) (values : List QueuedTransfer) : Decidable (Roomy owner values) :=
  inferInstanceAs (Decidable (_ ∨ _))

instance (platform : Platform) (localPath : Text) (resolved : ResolvedQueuedDownload) :
    Decidable (Readable platform localPath resolved) :=
  decidable_of_iff (_ ∧ _) ⟨fun both => ⟨both.1,both.2⟩,fun readable => ⟨readable.version,readable.destination⟩⟩

instance (platform : Platform) (queue : Queue) (call : Call) (fresh : Guid) :
    Decidable (StorableCall platform queue call fresh) := by
  unfold StorableCall
  split <;> infer_instance

instance (platform : Platform) (world : World) (event : Event) : Decidable (Storable platform world event) := by
  unfold Storable
  have decided (queue : Queue) : Decidable (match event with
    | .act id fresh _ => ∀ call ∈ queue.calls, call.id = id → StorableCall platform queue call fresh
    | .stopAsync jobId requested _ _ _ =>
      queue.activeJob ≠ some jobId → ∀ job ∈ find QueuedTransfer.jobId queue.jobs jobId, job.state.isOver = false →
        Roomy queue.owner (amend QueuedTransfer.jobId queue.jobs jobId (restricted requested))
    | _ => True) := by
    split <;> infer_instance
  infer_instance

structure Entry (platform : Platform) (job : QueuedTransfer) : Prop where
  identified : job.jobId ≠ Guid.empty
  logical : logicalFile job.logicalFileId = true
  recovery : job.recoveryRequired = true → job.state ≠ .queued ∧ job.state.isOver = false
  version : isNullOrWhiteSpace job.remoteVersion = false ∧ units job.remoteVersion ≤ 256 ∧ job.remoteVersion.any isControl = false
  coded : ∀ code ∈ job.errorCode, code ∈ errorCodes
  resource : reference job.resourceReference = true
  destination : canonicalStoredDestination platform job.destination = true
  pins : validatePins platform job.fileName job.length job.eTag job.sha256 = true
  running : job.state = .running → job.errorCode = none

section
section
variable (entry : Entry platform job)
include entry

theorem Entry.checked : checkTransfer platform job = .ok () := by
  have identified : (job.jobId == Guid.empty) = false := beq_eq_false_iff_ne.mpr entry.identified
  have recovery : (job.recoveryRequired && (job.state == .queued || job.state.isOver)) = false := by
    cases required : job.recoveryRequired with
    | false => rfl
    | true =>
      obtain ⟨queued,shut⟩ := entry.recovery required
      rw [beq_eq_false_iff_ne.mpr queued,shut]
      rfl
  have coded : (job.errorCode.any fun code => !errorCodes.contains code) = false := by
    cases code : job.errorCode with
    | none => rfl
    | some text => simpa using entry.coded text code
  obtain ⟨visible,bounded,printable⟩ := entry.version
  have stated : misstated job = false := by
    unfold misstated
    rw [identified,entry.logical,recovery,visible,printable,coded,decide_eq_false (Nat.not_lt.mpr bounded)]
    rfl
  unfold checkTransfer
  rw [stated,entry.resource,entry.destination,entry.pins]
  rfl

theorem Entry.change (recoveryRequired : Bool) (state : QueuedTransferState)
    (errorCode : Option Text) (recovery : recoveryRequired → state ≠ .queued ∧ state.isOver = false)
    (coded : ∀ code ∈ errorCode, code ∈ errorCodes) (running : state = .running → errorCode = none) :
    Entry platform { job with recoveryRequired, state, errorCode } :=
  ⟨entry.identified,entry.logical,recovery,entry.version,coded,entry.resource,entry.destination,entry.pins,running⟩

theorem Entry.begun : Entry platform (begun job) :=
  entry.change _ _ _ (fun _ => ⟨nofun,rfl⟩) nofun fun _ => rfl

theorem Entry.restricted (requested : Restriction) : Entry platform (restricted requested job) := by
  apply entry.change
  · intro required
    cases requested with
    | pause => exact ⟨nofun,rfl⟩
    | cancel => cases required
  · exact nofun
  · exact fun _ => rfl

theorem Entry.finished (ended : Ended outcome) : Entry platform (finished outcome job) := by
  apply entry.change
  · intro required
    simp only [Bool.and_eq_true,Bool.not_eq_true'] at required
    exact ⟨ended.queued,required.2⟩
  · exact ended.coded
  · intro runs
    exact absurd runs ended.running

theorem Entry.interrupted : Entry platform (interrupted job) := by
  unfold TransferQueue.interrupted
  split
  · have known : "interrupted".toList ∈ errorCodes := by simp [errorCodes]
    apply entry.change
    · intro _
      exact ⟨QueuedTransferState.noConfusion,rfl⟩
    · intro _ same
      rw [←Option.some.inj same]
      exact known
    · intro runs
      cases runs
  exact entry
end

theorem Entry.enqueued (accepted : validateResolved platform owner resolved = .ok ()) (valid : reference resourceReference)
    (readable : Readable platform localPath resolved) (fresh : jobId ≠ Guid.empty) : Entry platform (enqueued jobId resourceReference localPath resolved) := by
  obtain ⟨logical,⟨_,bounded,printable⟩,pins⟩ := validateResolved_ok accepted
  exact ⟨fresh,logical,nofun,⟨readable.version,bounded,printable⟩,nofun,valid,readable.destination,pins,nofun⟩

theorem entries_amend (entries : ∀ job ∈ jobs, Entry platform job) (kept : ∀ job, Entry platform job → Entry platform (change job)) :
    ∀ job ∈ amend QueuedTransfer.jobId jobs jobId change, Entry platform job := by
  intro job mem
  rcases mem_amend.mp mem with ⟨there,_⟩ | ⟨old,there,_,rfl⟩
  · exact entries job there
  exact kept old (entries old there)
end

section
variable {jobs : List QueuedTransfer} {owner : Owner}

theorem growth_settled (settled : ∀ job ∈ jobs, job.state ≠ .running) : growth jobs = 0 := by
  induction jobs with
  | nil => rfl
  | cons job _ ih =>
    have here := settled job mem_cons_self
    simp only [growth,here,if_false,Nat.zero_add]
    exact ih fun row there => settled row (mem_cons_of_mem _ there)

def changing (job : QueuedTransfer) : List (Text × Json) := (transferFields job).drop 9

theorem size_transfer (job : QueuedTransfer) :
    size (.object (transferFields job)) = 13 + sizeFields ((transferFields job).take 9) + sizeFields (changing job) := by
  have split : sizeFields (transferFields job) = sizeFields ((transferFields job).take 9) + sizeFields (changing job) := by
    rw [←sizeFields_append,changing,take_append_drop]
  have number : (transferFields job).length = 12 := rfl
  rw [size,split,number]
  omega

theorem changing_interrupted (runs : job.state = .running) (plain : job.errorCode = none) :
    sizeFields (changing (interrupted job)) = sizeFields (changing job) + if job.recoveryRequired then 8 else 7 := by
  unfold interrupted
  rw [if_pos runs]
  simp only [changing,transferFields,runs,plain,drop_succ_cons,drop_zero]
  cases job.recoveryRequired <;> decide

theorem size_interrupted (plain : job.state = .running → job.errorCode = none) :
    size (.object (transferFields (interrupted job))) = size (.object (transferFields job)) +
      if job.state = .running then if job.recoveryRequired then 8 else 7 else 0 := by
  by_cases runs : job.state = .running
  · have kept : (transferFields (interrupted job)).take 9 = (transferFields job).take 9 := by
      unfold interrupted
      rw [if_pos runs]
      rfl
    rw [size_transfer,size_transfer,kept,changing_interrupted runs (plain runs),if_pos runs]
    omega
  unfold interrupted
  rw [if_neg runs,if_neg runs,Nat.add_zero]

section
variable (plain : ∀ job ∈ jobs, job.state = .running → job.errorCode = none)
include plain

theorem sizeItems_interrupted : sizeItems ((jobs.map interrupted).map fun job => .object (transferFields job)) =
      sizeItems (jobs.map fun job => .object (transferFields job)) + growth jobs := by
  induction jobs with
  | nil => rfl
  | cons job _ ih =>
    simp only [map_cons,sizeItems,growth]
    rw [ih fun row there => plain row (mem_cons_of_mem _ there), size_interrupted (plain job mem_cons_self)]
    omega

theorem size_document_interrupted : size (document owner (jobs.map interrupted)) = size (document owner jobs) + growth jobs := by
  have items := sizeItems_interrupted plain
  simp only [document,stateFields,size,sizeFields,length_map,length_cons,length_nil,items]
  omega
end
end

structure Sound (platform : Platform) (queue : Queue) (call : Call) : Prop where
  resource : ∀ resourceReference localPath, call.request = .enqueue resourceReference localPath →
    reference resourceReference = true
  accepted : ∀ resolved, call.phase = .acting (some resolved) → validateResolved platform queue.owner resolved = .ok ()

structure Durable (platform : Platform) (world : World) : Prop where
  valid : Valid world
  entries : ∀ committed ∈ world.committed, ∀ job ∈ committed.jobs, Entry platform job
  room : ∀ committed ∈ world.committed, committed.jobs.length ≤ maximumJobs ∧
    size (document committed.owner committed.jobs) + growth committed.jobs ≤ maximumStateBytes
  calls : ∀ queue ∈ world.queue, ∀ call ∈ queue.calls, Sound platform queue call

section
variable {after : World} {next : Queue}

theorem fits_iff : fits owner values ↔ size (document owner values) ≤ maximumStateBytes ∧ values.length ≤ maximumJobs := by
  simp [fits]

theorem calls_sound (sound : ∀ call ∈ queue.calls, Sound platform queue call) (same : next.owner = queue.owner)
    (calls : ∀ call ∈ next.calls, CallFrom platform queue call) : ∀ call ∈ next.calls, Sound platform next call := by
  intro call mem
  cases calls call mem with
  | kept _ there =>
    obtain ⟨resource,accepted⟩ := sound call there
    exact ⟨resource,fun resolved phase => by rw [same]; exact accepted resolved phase⟩
  | moved old there _ checked =>
    exact ⟨(sound old there).resource,fun resolved same_phase => by rw [same]; exact checked resolved same_phase⟩
  | arrived _ request asked =>
    refine ⟨fun resourceReference localPath same_request => ?_,nofun⟩
    subst same_request
    exact asked

theorem edit_durable (edit : Edit queue event schedule) (coherent : Coherent queue.toSchedule)
    (entries : ∀ job ∈ queue.jobs, Entry platform job) (sound : ∀ call ∈ queue.calls, Sound platform queue call)
    (fresh : ∀ guid ∈ event.fresh, guid ≠ Guid.empty) (held : world.queue = some queue) (healthy : queue.storageFault = none)
    (storable : Storable platform world event) : (∀ job ∈ schedule.jobs, Entry platform job) ∧ Roomy queue.owner schedule.jobs := by
  have condition := storable queue held healthy
  have settled := edit_coherent edit coherent
  cases edit with
  | enqueue call mem asked checked room apart =>
    have call_condition := condition call mem rfl
    unfold StorableCall at call_condition
    rw [asked,checked] at call_condition
    obtain ⟨readable,roomy⟩ := call_condition room apart
    refine ⟨fun job there => ?_,roomy⟩
    rcases mem_snoc.mp there with old | rfl
    · exact entries job old
    exact .enqueued ((sound call mem).accepted _ checked) ((sound call mem).resource _ _ asked) readable (fresh _ rfl)
  | start call mem asked checked found current idle ready =>
    have call_condition := condition call mem rfl
    unfold StorableCall at call_condition
    rw [asked,checked] at call_condition
    exact ⟨entries_amend entries fun _ entry => entry.begun,call_condition current idle _ found ready⟩
  | @stop _ _ requested _ _ _ found inactive open_ =>
    exact ⟨entries_amend entries fun _ entry => entry.restricted requested,condition inactive _ found open_⟩
  | @finish outcome _ worker found stage =>
    have ended := coherent.ends worker (find_some found).1 outcome stage
    refine ⟨entries_amend entries fun _ entry => entry.finished ended,?_⟩
    have still : ∀ job ∈ amend QueuedTransfer.jobId queue.jobs worker.job.jobId (finished outcome), job.state ≠ .running := by
      intro job mem runs
      obtain ⟨one,_⟩ := coherent.only found
      obtain ⟨_,there,_,unfinished⟩ := settled.running job mem runs
      rw [one] at there
      rcases mem_amend.mp there with ⟨same,apart⟩ | ⟨_,_,_,rfl⟩
      · cases mem_singleton.mp same
        exact apart rfl
      exact unfinished rfl
    unfold Roomy
    rw [growth_settled still,Nat.add_zero]
    exact Nat.lt_or_ge _ _

theorem growth_interrupted (values : List QueuedTransfer) : growth (values.map interrupted) = 0 := by
  apply growth_settled
  intro _ mem
  obtain ⟨old,_,rfl⟩ := mem_map.mp mem
  exact interrupted_settled old

theorem step_durable (durable : Durable platform world) (step : Guarded (Step platform) (Storable platform) world event after) : Durable platform after := by
  obtain ⟨stepped,storable⟩ := step
  have valid := step_valid durable.valid stepped
  obtain ⟨rfl,admissible,_⟩ := stepped
  have unchanged (kept : (advance platform world event).committed = world.committed)
      (calls : ∀ queue ∈ (advance platform world event).queue, ∀ call ∈ queue.calls, Sound platform queue call) :
      Durable platform (advance platform world event) :=
    ⟨valid,by rw [kept]; exact durable.entries,by rw [kept]; exact durable.room,calls⟩
  cases advance_effect platform world event with
  | closed gone kept =>
    apply unchanged kept
    intro _ held
    rw [gone] at held
    cases held
  | opened _ values read fitting queue saved =>
    have entries : ∀ job ∈ values, Entry platform job := by
      rcases stored_committed durable.valid read with ⟨_,rfl⟩ | last
      · intro _ mem
        cases mem
      exact durable.entries _ last
    refine ⟨valid,?_,?_,?_⟩
    · intro _ there _ mem
      rw [saved] at there
      cases there
      obtain ⟨old,inside,rfl⟩ := mem_map.mp mem
      exact (entries old inside).interrupted
    · intro _ there
      rw [saved] at there
      cases there
      obtain ⟨small,few⟩ := fits_iff.mp fitting
      rw [growth_interrupted]
      exact ⟨few,small⟩
    intro _ held _ mem
    rw [queue] at held
    cases held
    cases mem
  | reserved _ before _ _ now kept =>
    apply unchanged kept
    intro _ held
    rw [now] at held
    cases held
    exact durable.calls _ before
  | turned queue _ before now turn calls kept =>
    apply unchanged kept
    intro _ held
    rw [now] at held
    cases held
    exact calls_sound (durable.calls queue before) (turn_owner turn) calls
  | saved queue _ before now healthy fitting edit calls saved =>
    obtain ⟨coherent,written⟩ := durable.valid.live queue before healthy
    obtain ⟨entries,roomy⟩ := edit_durable edit coherent (durable.entries _ written) (durable.calls queue before)
      (fun guid drawn => (admissible guid drawn).1) before healthy storable
    obtain ⟨small,few⟩ := fits_iff.mp fitting
    refine ⟨valid,?_,?_,?_⟩
    · intro _ there
      rw [saved] at there
      cases there
      exact entries
    · intro _ there
      rw [saved] at there
      cases there
      rcases roomy with large | leaves
      · exact absurd small (Nat.not_le.mpr large)
      exact ⟨few,leaves⟩
    intro _ held
    rw [now] at held
    cases held
    exact calls_sound (durable.calls queue before) (edit_owner edit) calls

theorem Durable.reopens (durable : Durable platform world) : Reopens platform world := by
  intro _ written
  rw [durable.valid.file] at written
  cases saved : world.committed with
  | none =>
    rw [saved] at written
    cases written
  | some committed =>
    rw [saved] at written
    cases written
    have entries := durable.entries committed saved
    obtain ⟨few,room⟩ := durable.room committed saved
    have small : size (document committed.owner committed.jobs) ≤ maximumStateBytes :=
      Nat.le_trans (Nat.le_add_right _ _) room
    have read : readState platform committed.owner (document committed.owner committed.jobs) = .ok committed.jobs :=
      readState_ok.mpr ⟨rfl,rfl,small,few,(durable.valid.durable committed saved).keyed,fun job mem => (entries job mem).checked⟩
    refine ⟨committed,rfl,read,?_⟩
    intro _ owned directory disk
    have normalised : fits committed.owner (committed.jobs.map interrupted) := by
      apply fits_iff.mpr
      rw [size_document_interrupted fun job mem => (entries job mem).running,length_map]
      exact ⟨room,few⟩
    have file : world.file = some (document committed.owner committed.jobs) := by
      rw [durable.valid.file,saved]
      rfl
    have values : stored platform committed.owner { world with queue := none } = .ok committed.jobs := by
      rw [file]
      exact read
    exact ⟨_,openAsync_opens owned directory (by rw [file]; rfl) rfl values normalised disk,rfl⟩
end

theorem initial_durable (platform : Platform) : Durable platform World.initial :=
  ⟨initial_valid,fun committed there => (initial_uncommitted committed there).elim,
    fun committed there => (initial_uncommitted committed there).elim,fun queue held => (initial_closed queue held).elim⟩

-- In a run that never enqueues an unreadable version or destination nor commits into the gap below the size limit,
-- what is on disk opens again.
theorem queue_round_trip (platform : Platform)
    (path : Runs (Guarded (Step platform) (Storable platform)) World.initial events world) : Reopens platform world := by
  have durable : Durable platform world :=
    path.preserves (Durable platform) (fun _ _ _ => step_durable) (initial_durable platform)
  exact durable.reopens

def interruptedStart : List Event :=
  openDesk :: queueOne ['v']++[.prepareStart (numbered 1),.startAsync 2 ⟨0,numbered 1,Guid.empty⟩,.acquire 2,
    .verify 2 signedIn false,.act 2 (numbered 3) true,.crash]

theorem queue_round_trip_example : Reopens desktop (interruptedStart.foldl (advance desktop) World.initial) :=
  queue_round_trip desktop (Runs.nested (Runs.admitted (advance desktop) World.initial interruptedStart (by decide +kernel)))

def blankVersion : List Event := openDesk :: queueOne [' ']
def blankWorld : World := blankVersion.foldl (advance desktop) World.initial

theorem blank_version_unreadable : Runs (Step desktop) World.initial blankVersion blankWorld ∧
      blankWorld.file.map (readState desktop ⟨['p'],['h'],person.principalId⟩) = some (.error .malformed) ∧ ¬Reopens desktop blankWorld := by
  have owner : blankWorld.committed.map Committed.owner = some ⟨['p'],['h'],person.principalId⟩ := by decide +kernel
  have unread : blankWorld.file.map (readState desktop ⟨['p'],['h'],person.principalId⟩) = some (.error .malformed) := by
    decide +kernel
  refine ⟨Runs.admitted (advance desktop) World.initial blankVersion (by decide +kernel),unread,?_⟩
  intro reopens
  obtain ⟨content,written,refused⟩ := Option.map_eq_some_iff.mp unread
  obtain ⟨_,saved,read,_⟩ := reopens content written
  rw [saved] at owner
  rw [Option.some.inj owner,refused] at read
  cases read
end LedgeTopOps.QueueRoundTrip
