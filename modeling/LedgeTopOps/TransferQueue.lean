import LedgeTopOps.QueueDocument
import LedgeTopOps.StepRuns

namespace LedgeTopOps.TransferQueue
open JsonTree TransferRecord QueueDocument KeyedRows StepRuns

structure StartReservation where
  queue : Nat
  (jobId stopGeneration : Guid)
  deriving DecidableEq

structure Outcome where
  state : QueuedTransferState
  (errorCode completed : Option Text)
  deriving DecidableEq

-- RunAsync before it knows its outcome, in the handler of a cancelled transfer,
-- before Finish, and past it.
inductive Stage where
  | body
  | stopping
  | finishing (outcome : Outcome)
  | clearing
  deriving DecidableEq

structure Worker where
  id : Nat
  job : QueuedTransfer
  stage : Stage
  deriving DecidableEq

inductive Request where
  | getJobs
  | enqueue (resourceReference localPath : Text)
  | start (reservation : StartReservation)
  | refreshSession
  | dispose

inductive Phase where
  | waiting
  | verifying
  | resolving
  | verifyingAgain (resolved : ResolvedQueuedDownload)
  | acting (resolved : Option ResolvedQueuedDownload)
  | draining (pending : Option Nat)
  deriving DecidableEq

structure Call where
  id : Nat
  request : Request
  phase : Phase

structure Schedule where
  identity : Nat
  owner : Owner
  jobs : List QueuedTransfer
  localStops : List (Guid × Guid)
  activeJob : Option Guid
  (activeCancellation activeTask : Option Nat)
  stopState : QueuedTransferState
  storageFault : Option (Option Text)
  workers : List Worker
  started : Nat

-- One queue instance. A captured cancellation source is called after the lock is released.
structure Queue extends Schedule where
  disposed : Bool
  commands : Option Nat
  calls : List Call
  (captured cancelled : List Nat)

structure Committed where
  owner : Owner
  jobs : List QueuedTransfer

-- The state directory, the process that holds it, and what has been committed
-- and handed out so far.
structure World where
  owned : Bool
  file : Option Json
  queue : Option Queue
  committed : Option Committed
  opened : Nat
  reservations : List StartReservation
  issued : List Guid

def World.initial : World := ⟨false,none,none,none,0,[],[]⟩

structure SessionAnswers where
  before : Reading
  session : Except Raised (Option QueuedDownloadSession)
  after : Reading
  now : Int

structure Content where
  (length lengthAfter : Int)
  sha256 : Except Raised Text

structure Recovery where
  directory : Directory
  (plain isFile isDirectory : Bool)
  content : Except Raised Content
  session : Except Raised (Option QueuedDownloadSession)
  reading : Reading
  now : Int
  cancelled : Bool

structure RunAnswers where
  directory : Directory
  first : Reading
  firstSession : Except Raised (Option QueuedDownloadSession)
  firstNow : Int
  resolved : Except Raised ResolvedQueuedDownload
  second : Reading
  secondSession : Except Raised (Option QueuedDownloadSession)
  third : Reading
  secondNow : Int
  cancelled : Bool
  recovery : Recovery
  lastDirectory : Directory
  downloaded : Except Raised Text

structure OpenAnswers where
  first : Reading
  session : Except Raised (Option QueuedDownloadSession)
  now : Int
  second : Reading
  (directory disk : Bool)

inductive Restriction where
  | pause | cancel
  deriving DecidableEq

def Restriction.state : Restriction → QueuedTransferState
  | .pause => .paused
  | .cancel => .cancelled

inductive Event where
  | openAsync (answers : OpenAnswers)
  | crash
  | prepareStart (jobId : Guid)
  | enqueueAsync (id : Nat) (resourceReference destination : Text) (seen : Directory)
  | startAsync (id : Nat) (reservation : StartReservation)
  | call (id : Nat) (request : Request)
  | abandon (id : Nat)
  | acquire (id : Nat)
  | verify (id : Nat) (answers : SessionAnswers) (abandoned : Bool)
  | resolve (id : Nat) (answer : Except Raised ResolvedQueuedDownload)
  | act (id : Nat) (fresh : Guid) (disk : Bool)
  | drained (id : Nat)
  | stopAsync (jobId : Guid) (requested : Restriction) (abandoned : Bool) (fresh : Guid) (disk : Bool)
  | cancel (worker : Nat)
  | runAsync (worker : Nat) (answers : RunAnswers) (now : Int)
  | settle (worker : Nat)
  | finish (worker : Nat) (disk : Bool)
  | clear (worker : Nat)

def authenticate (owner : Owner) (before : Option Reading) (session : Except Raised (Option QueuedDownloadSession))
    (after : Option Reading) (now : Int) : Except Raised QueuedDownloadSession :=
  match before.elim (.ok ()) (checkSource owner) with
  | .error raised => .error raised
  | .ok () => match session with
    | .error raised => .error raised
    | .ok value => match after.elim (.ok ()) (checkSource owner) with
      | .error raised => .error raised
      | .ok () => match validSession value now with
        | .error raised => .error raised
        | .ok current => if current.principalId ≠ owner.principal then .error .accessDenied else .ok current

def mismatch : Outcome := ⟨.failed,some "existing-content-mismatch".toList,none⟩

def recoverExistingAsync (platform : Platform) (owner : Owner) (job : QueuedTransfer) (found : Recovery) :
    Except Raised (Option Outcome) :=
  match localDirectory platform job.destination found.directory with
  | .error raised => .error raised
  | .ok directory =>
    let output := platform.combine directory job.fileName
    if !found.plain then .error .other else
    if !found.isFile && !found.isDirectory then .ok none else
    if found.isDirectory then .ok (some mismatch) else
    match found.content with
    | .error raised => .error raised
    | .ok content =>
      if content.length ≠ job.length then .ok (some mismatch) else
      match content.sha256 with
      | .error raised => .error raised
      | .ok actual =>
        if content.lengthAfter ≠ job.length ∨ actual ≠ job.sha256 then .ok (some mismatch) else
        match authenticate owner none found.session (some found.reading) found.now with
        | .error raised => .error raised
        | .ok _ => if found.cancelled then .error .operationCanceled
          else .ok (some ⟨.completed,none,some output⟩)

def resolveJob (platform : Platform) (owner : Owner) (job : QueuedTransfer) (found : RunAnswers) :
    Except Raised (Outcome ⊕ QueuedDownloadSession) :=
  match localDirectory platform job.destination found.directory with
  | .error raised => .error raised
  | .ok _ => match authenticate owner (some found.first) found.firstSession none found.firstNow with
    | .error raised => .error raised
    | .ok _ => match found.resolved with
      | .error raised => .error raised
      | .ok resolved => match checkSource owner found.second with
        | .error raised => .error raised
        | .ok () => match validateResolved platform owner resolved with
          | .error raised => .error raised
          | .ok () =>
            let spec := resolved.spec
            if resolved.logicalFileId ≠ job.logicalFileId
            then .ok (.inl ⟨.accessDenied,some "resource-identity-changed".toList,none⟩) else
            if resolved.remoteVersion ≠ job.remoteVersion ∨ spec.fileName ≠ job.fileName ∨ spec.length ≠ job.length ∨
              spec.eTag ≠ job.eTag ∨ spec.sha256 ≠ job.sha256
            then .ok (.inl ⟨.versionChanged,some "version-changed".toList,none⟩) else
            match authenticate owner none found.secondSession (some found.third) found.secondNow with
            | .error raised => .error raised
            | .ok session => if found.cancelled then .error .operationCanceled else .ok (.inr session)

def transferJob (platform : Platform) (owner : Owner) (job : QueuedTransfer) (found : RunAnswers) : Except Raised Outcome :=
  match if job.recoveryRequired then recoverExistingAsync platform owner job found.recovery else .ok none with
  | .error raised => .error raised
  | .ok (some outcome) => .ok outcome
  | .ok none => match localDirectory platform job.destination found.lastDirectory with
    | .error raised => .error raised
    | .ok _ => match found.downloaded with
      | .error raised => .error raised
      | .ok output =>
        if platform.getFullPath output ≠ platform.combine job.destination job.fileName then .error .other
        else .ok ⟨.completed,none,some output⟩

-- The handlers of RunAsync. A cancelled transfer reads the stop state later.
def handle (raised : Raised) (sessionExpiry : Option Int) (now : Int) (cancelled : Bool) : Stage :=
  match raised with
  | .operationCanceled =>
    if cancelled then .stopping else
    if sessionExpiry.any fun expiry => decide (expiry ≤ now)
    then .finishing ⟨.loginRequired,some "login-required".toList,none⟩
    else .finishing ⟨.failed,some "transfer-failed".toList,none⟩
  | .loginRequired => .finishing ⟨.loginRequired,some "login-required".toList,none⟩
  | .accessDenied => .finishing ⟨.accessDenied,some "access-denied".toList,none⟩
  | .resourceUnavailable => .finishing ⟨.resourceUnavailable,some "resource-unavailable".toList,none⟩
  | .other => .finishing ⟨.failed,some "transfer-failed".toList,none⟩

def runAsync (platform : Platform) (owner : Owner) (job : QueuedTransfer) (found : RunAnswers) (now : Int)
    (cancelled : Bool) : Stage :=
  match resolveJob platform owner job found with
  | .error raised => handle raised none now cancelled
  | .ok (.inl outcome) => .finishing outcome
  | .ok (.inr session) => match transferJob platform owner job found with
    | .error raised => handle raised (some session.expiresAt) now cancelled
    | .ok outcome => .finishing outcome

def World.put (world : World) (queue : Queue) : World := { world with queue := some queue }

def fits (owner : Owner) (values : List QueuedTransfer) : Bool :=
  decide (size (document owner values) ≤ maximumStateBytes) && decide (values.length ≤ maximumJobs)

-- Commit. None is the storage exception, which leaves the jobs; disk says whether every file operation succeeded.
def commit (world : World) (queue : Queue) (values : List QueuedTransfer) (disk : Bool) : Option World :=
  if queue.storageFault.isSome || !fits queue.owner values || !disk then none
  else some { world with
    file := some (document queue.owner values)
    committed := some ⟨queue.owner,values⟩
    queue := some { queue with jobs := values } }

def generation (schedule : Schedule) (jobId : Guid) : Guid := (schedule.localStops.lookup jobId).getD Guid.empty

def release (queue : Queue) (id : Nat) : Queue :=
  { queue with commands := none, calls := drop Call.id queue.calls id }

def proceed (queue : Queue) (id : Nat) (phase : Phase) : Queue :=
  { queue with calls := amend Call.id queue.calls id fun call => { call with phase } }

def capture (queue : Queue) : Queue := { queue with captured := queue.activeCancellation.toList++queue.captured }
def drainAsync (queue : Queue) (id : Nat) : Queue := proceed (capture queue) id (.draining queue.activeTask)

-- Running is never trusted as resumable completion after a crash.
def interrupted (job : QueuedTransfer) : QueuedTransfer :=
  if job.state = .running
  then { job with state := .paused, recoveryRequired := true, errorCode := some "interrupted".toList } else job

def newQueue (world : World) (owner : Owner) (jobs : List QueuedTransfer) : Queue :=
  ⟨⟨world.opened,owner,jobs,[],none,none,none,.paused,none,[],0⟩,false,none,[],[],[]⟩

def openingOwner (found : OpenAnswers) : Option Owner :=
  match fixedOrigin found.first.origin with
  | .error _ => none
  | .ok origin =>
    if !aliasPattern found.first.sourceAlias then none else
    match found.session with
    | .error _ => none
    | .ok value => match validSession value found.now with
      | .error _ => none
      | .ok session => match fixedOrigin found.second.origin with
        | .error _ => none
        | .ok again => if found.second.sourceAlias ≠ found.first.sourceAlias ∨ again ≠ origin then none
          else some ⟨found.first.sourceAlias,origin,session.principalId⟩

def stored (platform : Platform) (owner : Owner) (world : World) : Except ReadError (List QueuedTransfer) :=
  match world.file with
  | none => .ok []
  | some content => readState platform owner content

-- An owned directory without a state file needs manual recovery, and the lock
-- of a queue that is not disposed keeps every other instance out.
def openAsync (platform : Platform) (world : World) (found : OpenAnswers) : World :=
  match openingOwner found with
  | none => world
  | some owner =>
    if !found.directory || (world.owned && world.file.isNone) || world.queue.any (fun queue => !queue.disposed) then world else
    let marked := { world with owned := true }
    match stored platform owner world with
    | .error _ => marked
    | .ok values =>
      (commit { marked with opened := world.opened + 1 } (newQueue world owner values) (values.map interrupted) found.disk).getD marked

def prepareStart (queue : Queue) (jobId : Guid) : Option StartReservation :=
  if queue.disposed || queue.storageFault.isSome || (find QueuedTransfer.jobId queue.jobs jobId).isNone then none
  else some ⟨queue.identity,jobId,generation queue.toSchedule jobId⟩

def arrive (queue : Queue) (id : Nat) (request : Request) : Queue :=
  { queue with calls := queue.calls++[⟨id,request,.waiting⟩] }

def acquire (queue : Queue) (call : Call) : Queue :=
  if call.phase ≠ .waiting ∨ queue.commands.isSome then queue else
  let held := { queue with commands := some call.id }
  if queue.disposed then release held call.id else
  match call.request with
  | .dispose => drainAsync held call.id
  | _ => proceed held call.id .verifying

-- VerifySessionAsync. A failed check drains the active transfer first; a call abandoned by its caller does not.
def verifySession (platform : Platform) (queue : Queue) (call : Call) (found : SessionAnswers) (abandoned : Bool) : Queue :=
  let checked := authenticate queue.owner (some found.before) found.session (some found.after) found.now
  match checked with
  | .error raised =>
    if raised = .operationCanceled ∧ abandoned then release queue call.id else drainAsync queue call.id
  | .ok _ => match call.request,call.phase with
    | .start _,.verifying => proceed queue call.id (.acting none)
    | .enqueue _ _,.verifying => proceed queue call.id .resolving
    | .enqueue _ _,.verifyingAgain resolved => match validateResolved platform queue.owner resolved with
      | .error _ => release queue call.id
      | .ok () => proceed queue call.id (.acting (some resolved))
    | _,_ => release queue call.id

def verify (platform : Platform) (queue : Queue) (call : Call) (found : SessionAnswers) (abandoned : Bool) : Queue :=
  match call.phase with
  | .verifying | .verifyingAgain _ => verifySession platform queue call found abandoned
  | _ => queue

def resolve (queue : Queue) (call : Call) (answer : Except Raised ResolvedQueuedDownload) : Queue :=
  if call.phase ≠ .resolving then queue else
  match answer with
  | .error _ => release queue call.id
  | .ok resolved => proceed queue call.id (.verifyingAgain resolved)

def enqueued (jobId : Guid) (resourceReference localPath : Text) (resolved : ResolvedQueuedDownload) : QueuedTransfer :=
  ⟨jobId,resourceReference,localPath,resolved.logicalFileId,resolved.remoteVersion,resolved.spec.fileName,
    resolved.spec.length,resolved.spec.eTag,resolved.spec.sha256,false,.queued,none⟩

def enqueueAsync (world : World) (queue : Queue) (resourceReference localPath : Text) (resolved : ResolvedQueuedDownload)
    (fresh : Guid) (disk : Bool) : World :=
  if queue.storageFault.isSome || decide (maximumJobs ≤ queue.jobs.length) || queue.jobs.any (fun old =>
    old.resourceReference == resourceReference && old.destination == localPath && !old.state.isOver)
  then world.put queue else
  (commit world queue (queue.jobs++[enqueued fresh resourceReference localPath resolved]) disk).getD (world.put queue)

def begun (job : QueuedTransfer) : QueuedTransfer := { job with state := .running, errorCode := none }

def beginAsync (world : World) (queue : Queue) (reservation : StartReservation) (disk : Bool) : World :=
  if queue.storageFault.isSome then world.put queue else
  match find QueuedTransfer.jobId queue.jobs reservation.jobId with
  | none => world.put queue
  | some job =>
    if generation queue.toSchedule reservation.jobId ≠ reservation.stopGeneration then world.put queue else
    if queue.activeJob.isSome || job.state == .running || job.state.isOver then world.put queue else
    (commit world { queue with
        activeCancellation := some queue.started
        activeJob := some reservation.jobId
        stopState := .paused
        activeTask := some queue.started
        workers := queue.workers++[⟨queue.started,job,.body⟩]
        started := queue.started + 1 }
      (amend QueuedTransfer.jobId queue.jobs reservation.jobId begun) disk).getD (world.put queue)

-- A call that holds the gate and has passed its checks takes the lock, and the
-- gate is released whatever the section decides.
def act (world : World) (queue : Queue) (call : Call) (fresh : Guid) (disk : Bool) : World :=
  let released := release queue call.id
  match call.request,call.phase with
  | .enqueue resourceReference localPath,.acting (some resolved) =>
    enqueueAsync world released resourceReference localPath resolved fresh disk
  | .start reservation,.acting none => beginAsync world released reservation disk
  | _,_ => world

def drained (queue : Queue) (call : Call) : Queue :=
  match call.phase with
  | .draining pending =>
    if pending.any (fun task => queue.workers.any fun worker => worker.id == task) then queue else
    match call.request with
    | .dispose => { release queue call.id with disposed := true }
    | _ => release queue call.id
  | _ => queue

def restricted (requested : Restriction) (job : QueuedTransfer) : QueuedTransfer :=
  { job with
    state := requested.state
    errorCode := none
    recoveryRequired := requested.state != .cancelled && job.recoveryRequired }

def stopAsync (world : World) (queue : Queue) (jobId : Guid) (requested : Restriction) (abandoned : Bool)
    (fresh : Guid) (disk : Bool) : World :=
  if queue.disposed then world else
  let marked := { queue with localStops := (jobId,fresh) :: queue.localStops }
  if queue.activeJob = some jobId then
    world.put (capture { marked with
      stopState := if requested = .cancel ∨ queue.stopState ≠ .cancelled then requested.state else queue.stopState })
  else if abandoned || queue.storageFault.isSome then world else
  match find QueuedTransfer.jobId queue.jobs jobId with
  | none => world
  | some job =>
    if job.state.isOver then world else
    (commit world marked (amend QueuedTransfer.jobId queue.jobs jobId (restricted requested)) disk).getD (world.put marked)

def cancel (queue : Queue) (worker : Nat) : Queue :=
  if queue.captured.contains worker then { queue with cancelled := worker :: queue.cancelled } else queue

def staged (queue : Queue) (worker : Worker) (stage : Stage) : Queue :=
  { queue with workers := amend Worker.id queue.workers worker.id fun row => { row with stage } }

def run (platform : Platform) (queue : Queue) (worker : Worker) (found : RunAnswers) (now : Int) : Queue :=
  if worker.stage = .body
  then staged queue worker (runAsync platform queue.owner worker.job found now (queue.cancelled.contains worker.id))
  else queue

def settle (queue : Queue) (worker : Worker) : Queue :=
  if worker.stage = .stopping then staged queue worker (.finishing ⟨queue.stopState,none,none⟩) else queue

def finished (outcome : Outcome) (job : QueuedTransfer) : QueuedTransfer :=
  { job with
    state := outcome.state
    errorCode := outcome.errorCode
    recoveryRequired := job.recoveryRequired && !outcome.state.isOver }

def saveFailed (job : QueuedTransfer) : QueuedTransfer :=
  { job with state := .completed, recoveryRequired := false, errorCode := some "state-save-failed".toList }

def finish (world : World) (queue : Queue) (worker : Worker) (disk : Bool) : World :=
  match worker.stage with
  | .finishing outcome =>
    let past := staged queue worker .clearing
    (commit world past (amend QueuedTransfer.jobId queue.jobs worker.job.jobId (finished outcome)) disk).getD (world.put { past with
        storageFault := some outcome.completed
        jobs := if outcome.completed.isSome
          then amend QueuedTransfer.jobId queue.jobs worker.job.jobId saveFailed else queue.jobs })
  | _ => world

def clear (queue : Queue) (worker : Worker) : Queue :=
  if worker.stage = .clearing
  then { queue with
    activeJob := none
    activeCancellation := none
    workers := drop Worker.id queue.workers worker.id }
  else queue

def withCall (queue : Queue) (id : Nat) (use : Call → World) (world : World) : World :=
  (find Call.id queue.calls id).elim world use

def withWorker (queue : Queue) (id : Nat) (use : Worker → World) (world : World) : World :=
  (find Worker.id queue.workers id).elim world use

def advanceQueue (platform : Platform) (world : World) (queue : Queue) : Event → World
  | .openAsync found => openAsync platform world found
  | .crash => { world with queue := none }
  | .prepareStart jobId => { world with reservations := world.reservations++(prepareStart queue jobId).toList }
  | .enqueueAsync id resourceReference destination seen =>
    if !reference resourceReference then world else
    match localDirectory platform destination seen with
    | .error _ => world
    | .ok path => world.put (arrive queue id (.enqueue resourceReference path))
  | .startAsync id reservation =>
    if reservation.queue ≠ queue.identity then world else world.put (arrive queue id (.start reservation))
  | .call id request => match request with
    | .getJobs | .refreshSession | .dispose => world.put (arrive queue id request)
    | .enqueue _ _ | .start _ => world
  | .abandon id => withCall queue id (fun call =>
    if call.phase = .waiting then world.put { queue with calls := drop Call.id queue.calls id } else world) world
  | .acquire id => withCall queue id (fun call => world.put (acquire queue call)) world
  | .verify id found abandoned => withCall queue id (fun call => world.put (verify platform queue call found abandoned)) world
  | .resolve id answer => withCall queue id (fun call => world.put (resolve queue call answer)) world
  | .act id fresh disk => withCall queue id (fun call => act world queue call fresh disk) world
  | .drained id => withCall queue id (fun call => world.put (drained queue call)) world
  | .stopAsync jobId requested abandoned fresh disk => stopAsync world queue jobId requested abandoned fresh disk
  | .cancel worker => world.put (cancel queue worker)
  | .runAsync id found now => withWorker queue id (fun worker => world.put (run platform queue worker found now)) world
  | .settle id => withWorker queue id (fun worker => world.put (settle queue worker)) world
  | .finish id disk => withWorker queue id (fun worker => finish world queue worker disk) world
  | .clear id => withWorker queue id (fun worker => world.put (clear queue worker)) world

def Event.fresh : Event → Option Guid
  | .act _ fresh _ | .stopAsync _ _ _ fresh _ => some fresh
  | _ => none

def advance (platform : Platform) (world : World) (event : Event) : World :=
  let after := match world.queue with
    | some queue => advanceQueue platform world queue event
    | none => match event with
      | .openAsync found => openAsync platform world found
      | _ => world
  { after with issued := event.fresh.toList++world.issued }

def Event.arrives : Event → Option Nat
  | .enqueueAsync id _ _ _ | .startAsync id _ | .call id _ => some id
  | _ => none

def Event.reservation : Event → Option StartReservation
  | .startAsync _ reservation => some reservation
  | _ => none

-- Identifiers are new, a call is a call of its own, and a reservation is one
-- that was handed out.
def Admissible (world : World) (event : Event) : Prop :=
  (∀ fresh ∈ event.fresh, fresh ≠ Guid.empty ∧ fresh ∉ world.issued) ∧
  (∀ id ∈ event.arrives, ∀ queue ∈ world.queue, ∀ call ∈ queue.calls, call.id ≠ id) ∧
  ∀ reservation ∈ event.reservation, reservation ∈ world.reservations

instance (world : World) (event : Event) : Decidable (Admissible world event) :=
  inferInstanceAs (Decidable (_ ∧ _ ∧ _))

def Step (platform : Platform) : World → Event → World → Prop :=
  Guarded (fun before event after => advance platform before event = after) Admissible
end LedgeTopOps.TransferQueue
