import LedgeTopOps.RendererAttempts

namespace LedgeTopOps.ThumbnailHandoff
open RendererAttempts (Status maxRecoveryAttempts terminalAttempt defaultLease fallbackGrace recoveryDelay)

-- The thumbnail jobs, the job queue with its dead letters, and the operations that hand a job on, call by call, in
-- seconds.
abbrev Key := List Char

def maxDeliveryAttempts : Nat := 6

-- `sourceTransfer` is an invalid input whose message says that the transfer failed.
inductive ContainerError where
  | encryptedPdf | invalidInput | sourceTransfer | invalidRequest | invalidOutput | metadataNotStripped | outputTooLarge | pdfPageLimit
  | pixelLimitExceeded | renderFailed | renderTimeout | resourceExhausted | unsupportedFormat
  deriving DecidableEq

def ContainerError.permanent : ContainerError → Bool
  | .encryptedPdf | .invalidInput | .sourceTransfer | .invalidRequest | .invalidOutput | .metadataNotStripped | .outputTooLarge | .pdfPageLimit
  | .unsupportedFormat => true
  | _ => false

inductive ErrorCode where
  | container (error : ContainerError)
  | emptySource | sourceChanged | thumbnailConflict | completionRace | thumbnailProcessingError | queuePublishFailed
  | videoThumbnailDisabled | retryExhausted | deadLettered
  | other (code : Nat)
  deriving DecidableEq

def ErrorCode.transient : ErrorCode → Bool
  | .thumbnailProcessingError | .queuePublishFailed | .videoThumbnailDisabled | .container .sourceTransfer => true
  | _ => false

def pixelLimit : ErrorCode := .container .pixelLimitExceeded

structure Job where
  key : Key
  etag : Nat
  status : Status
  attempt : Nat
  (lease notBefore : Option Nat)
  error : Option ErrorCode
  (failedAt lastEvent published : Option Nat)

-- A queue message for one source version, and how often it has been delivered.
structure Message where
  key : Key
  (etag attempts : Nat)
  deriving DecidableEq

structure Store where
  now : Nat
  jobs : List Job
  (queue dead : List Message)

structure Event where
  key : Key
  (etag size time notBefore : Nat)

def Job.expired (job : Job) (now : Nat) : Bool := job.lease.all (· ≤ now)
def Job.leased (job : Job) (now : Nat) : Bool := job.lease.any (now < ·)
def Job.fallbackDue (job : Job) (now : Nat) : Bool := job.notBefore.all (· + fallbackGrace ≤ now)
def Job.running (job : Job) (attempt : Nat) : Bool := job.status = .processing && job.attempt = attempt
def Job.claimable (job : Job) (now : Nat) : Bool :=
  (job.status = .pending || (job.status = .processing && job.expired now)) && job.fallbackDue now

def Store.job (s : Store) (key : Key) : Option Job := s.jobs.find? (·.key = key)
def Store.version (s : Store) (key : Key) (etag : Nat) : Option Job := (s.job key).filter (·.etag = etag)

def chosen (key : Key) (etag : Nat) (condition : Job → Bool) (job : Job) : Bool := job.key = key && job.etag = etag && condition job
def Store.matching (s : Store) (key : Key) (etag : Nat) (condition : Job → Bool) : Bool := s.jobs.any (chosen key etag condition)
def Store.update (s : Store) (key : Key) (etag : Nat) (condition : Job → Bool) (change : Job → Job) : Store :=
  { s with jobs := s.jobs.map fun job => if chosen key etag condition job then change job else job }

def Event.job (e : Event) : Job := ⟨e.key,e.etag,.pending,0,none,some e.notBefore,none,none,some e.time,none⟩

def Event.newer (e : Event) (job : Job) : Bool :=
  job.lastEvent.all fun last => last < e.time || (e.time = last && job.etag = e.etag)

-- Another version starts over; the same version keeps its columns.
def Event.over (e : Event) (job : Job) : Job := if job.etag = e.etag then { job with lastEvent := some e.time } else e.job

def Store.register (s : Store) (e : Event) : Store :=
  match s.job e.key with
  | none => { s with jobs := s.jobs++[e.job] }
  | some _ => { s with jobs := s.jobs.map fun job => if job.key = e.key && e.newer job then e.over job else job }

def Store.send (s : Store) (key : Key) (etag : Nat) : Store := { s with queue := s.queue++[⟨key,etag,0⟩] }

-- A message that is not acknowledged is delivered again, or goes to the dead letters.
def Store.giveBack (s : Store) (m : Message) : Store :=
  if maxDeliveryAttempts ≤ m.attempts then { s with dead := m :: s.dead } else { s with queue := m :: s.queue }

def Message.final (m : Message) : Bool := maxDeliveryAttempts ≤ m.attempts

inductive Outcome where
  | ready | duplicate | pending | obsolete | deferred | retry | failed

def Outcome.again (final : Bool) : Outcome → Bool
  | .deferred | .retry => true
  | .failed => final
  | _ => false

inductive Sender where
  | enqueue | transient | expired | republish | fail | cleanup
  deriving DecidableEq

inductive Pc where
  -- enqueueThumbnailJob
  | register (e : Event)
  | registered (e : Event)
  | resetFailure (e : Event)
  | emptySource (e : Event)
  | current (e : Event)
  | send (sender : Sender) (key : Key) (etag : Nat)
  | mark (sender : Sender) (key : Key) (etag : Nat)
  | sendFailed (sender : Sender) (key : Key) (etag : Nat)
  -- consumeThumbnailJobs, one message
  | jobRead (m : Message)
  | jobHead (m : Message)
  | jobClaim (m : Message) (changed : Bool)
  | jobRaced (m : Message)
  | jobWork (m : Message) (attempt : Nat)
  | jobReturn (m : Message) (attempt : Nat)
  | jobStore (m : Message) (attempt : Nat)
  | jobAdopt (m : Message) (attempt : Nat) (occupied : Bool)
  | jobOccupied (m : Message) (attempt : Nat)
  | jobComplete (m : Message) (attempt : Nat)
  | jobLost (m : Message) (attempt : Nat)
  | jobFail (m : Message) (attempt : Nat) (code : ErrorCode) (terminal : Bool) (caught : Bool) (outcome : Outcome)
  | jobTidy (m : Message) (attempt : Nat)
  | answer (m : Message) (outcome : Outcome)
  -- consumeThumbnailDeadLetters, one message
  | deadMark (m : Message)
  | deadTidy (m : Message)
  -- handleClaim, handleFail
  | claimRead (key : Key)
  | claimHead (key : Key) (etag : Nat) (read : Nat)
  | claimReject (key : Key) (etag : Nat)
  | claimLease (key : Key) (etag : Nat) (read : Nat)
  | failRead (key : Key) (attempt : Nat) (code : ErrorCode)
  | failWrite (key : Key) (etag : Nat) (attempt : Nat) (code : ErrorCode)
  -- recoverTransientThumbnailFailures, recoverExpiredThumbnailLeases, republishPendingThumbnailFallbacks
  | transientRead (key : Key)
  | transientClaim (key : Key) (etag : Nat)
  | expiredRead (key : Key)
  | expiredRemove (key : Key) (etag : Nat)
  | expiredExhaust (key : Key) (etag : Nat)
  | expiredClaim (key : Key) (etag : Nat)
  | republishRead (key : Key)
  -- drainThumbnailCleanup, the derivative of one source version
  | drainRead (key : Key) (etag : Nat)
  | drainDelete (key : Key) (etag : Nat)
  | drainRevived (key : Key) (etag : Nat)
  | regenerate (key : Key) (etag : Nat)
  | halted

inductive Worked where
  | container (error : ContainerError)
  | invalid
  | rendered
  deriving DecidableEq

inductive Storing where
  | adopted (occupied : Bool)
  | occupied
  | refused
  | stored
  deriving DecidableEq

inductive Reply where
  | ok
  | failed (applied : Bool)
  | flag (yes : Bool)
  | worked (result : Worked)
  | storing (result : Storing)
  deriving DecidableEq

def done (s : Store) (next : Pc) : Reply → Option (Store × Pc)
  | .ok => some (s,next)
  | _ => none

def asked (s : Store) (next : Bool → Pc) : Reply → Option (Store × Pc)
  | .flag yes => some (s,next yes)
  | _ => none

-- A call whose failure the operation handles; it may have taken effect all the same.
def attempted (s t : Store) (next raised : Pc) : Reply → Option (Store × Pc)
  | .ok => some (t,next)
  | .failed applied => some (if applied then t else s,raised)
  | _ => none

def Sender.marks : Sender → Job → Bool
  | .enqueue, job => job.status = .pending || job.status = .processing
  | .republish, job => job.status = .pending && job.published.isNone
  | _, job => job.status = .pending

def Sender.marked (now : Nat) : Sender → Job → Job
  | .enqueue, job => { job with published := some (job.published.getD now) }
  | _, job => { job with published := some now }

def Sender.sendRaised (key : Key) (etag : Nat) : Sender → Pc
  | .republish | .fail => .halted
  | sender => .sendFailed sender key etag

-- The enqueue only logs that its mark failed.
def Sender.markRaised (key : Key) (etag : Nat) : Sender → Pc
  | .republish | .fail | .enqueue => .halted
  | sender => .sendFailed sender key etag

def Sender.failed (now : Nat) (sender : Sender) (job : Job) : Job :=
  { job with
    status := .failed
    error := some .queuePublishFailed
    failedAt := some now
    lease := if sender = .expired then none else job.lease }

def raised (m : Message) (attempt : Nat) : Pc :=
  .jobFail m attempt .thumbnailProcessingError m.final true (if m.final then .failed else .retry)

def transientDue (job : Job) : Bool := job.status = .failed && job.error.any (·.transient) && job.attempt < maxRecoveryAttempts

def Pc.call (sources : Key → Nat) (s : Store) : Pc → Reply → Option (Store × Pc)
  | .register e => done (s.register e) (.registered e)
  | .registered e => done s (if (s.version e.key e.etag).isSome then .resetFailure e else .halted)
  | .resetFailure e => done
      (s.update e.key e.etag (fun job => job.status = .failed && job.error = some .queuePublishFailed) fun job =>
        { job with status := .pending, error := none, failedAt := none })
      (if e.size = 0 then .emptySource e else .current e)
  | .emptySource e => done (s.update e.key e.etag (fun _ => true) fun job =>
      { job with status := .failed, error := some .emptySource, lease := none, failedAt := some s.now }) .halted
  | .current e => done s (match s.job e.key with
      | some job => if job.status = .ready || job.status = .failed || job.published.isSome then .halted else .send .enqueue e.key e.etag
      | none => .send .enqueue e.key e.etag)
  | .send sender key etag => attempted s (s.send key etag) (.mark sender key etag) (sender.sendRaised key etag)
  | .mark sender key etag => attempted s (s.update key etag sender.marks (sender.marked s.now)) .halted (sender.markRaised key etag)
  | .sendFailed sender key etag => done (s.update key etag (·.status = .pending) (sender.failed s.now)) .halted
  | .jobRead m => done s (match s.version m.key m.etag with
      | none => .answer m .obsolete
      | some job => match job.status with
        | .ready => .answer m .duplicate
        | .failed => .answer m .obsolete
        | _ => if job.status = .processing && job.leased s.now then .answer m .pending
          else if job.fallbackDue s.now then .jobHead m else .answer m .deferred)
  | .jobHead m => done s (.jobClaim m (sources m.key ≠ m.etag))
  -- claimJob; only its result for an unchanged source is remembered by the catch.
  | .jobClaim m changed => done
      (s.update m.key m.etag (·.claimable s.now) fun job =>
        { job with status := .processing, attempt := job.attempt + 1, lease := some (s.now + defaultLease) })
      (match (s.version m.key m.etag).filter (·.claimable s.now) with
        | some job => if changed then .jobFail m (job.attempt + 1) .sourceChanged true true .obsolete else .jobWork m (job.attempt + 1)
        | none => if changed then .answer m .obsolete else .jobRaced m)
  | .jobRaced m => done s (.answer m (match s.job m.key with
      | some job => if job.status = .ready && job.etag = m.etag then .duplicate
        else if job.status = .processing && job.leased s.now then .pending else .retry
      | none => .retry))
  | .jobWork m attempt => fun reply => match reply with
      | .failed _ => some (s,raised m attempt)
      | .worked (.container error) => some (s,
          if error = .pixelLimitExceeded then .jobReturn m attempt
          else if error.permanent || m.final then .jobFail m attempt (.container error) true false .failed
          else .jobFail m attempt (.container error) false false .retry)
      | .worked .invalid => some (s,.jobFail m attempt (.container .invalidOutput) true false .failed)
      | .worked .rendered => some (s,.jobStore m attempt)
      | _ => none
  | .jobReturn m attempt => attempted s
      (s.update m.key m.etag (·.running attempt) fun job => { job with
        status := .pending
        error := some pixelLimit
        lease := none
        failedAt := none
        published := none
        notBefore := some s.now }) (.answer m .pending) (raised m attempt)
  | .jobStore m attempt => fun reply => match reply with
      | .failed _ => some (s,raised m attempt)
      | .storing (.adopted occupied) => some (s,.jobAdopt m attempt occupied)
      | .storing .occupied => some (s,.jobOccupied m attempt)
      | .storing .refused => some (s,.jobFail m attempt .thumbnailConflict true false .failed)
      | .storing .stored => some (s,.jobComplete m attempt)
      | _ => none
  -- completeJob for the thumbnail that was there.
  | .jobAdopt m attempt occupied => attempted s
      (s.update m.key m.etag (·.running attempt) fun job => { job with status := .ready, error := none, lease := none, failedAt := none })
      (if s.matching m.key m.etag (·.running attempt) then .answer m .ready
        else if occupied then .jobOccupied m attempt else .jobFail m attempt .thumbnailConflict true false .failed)
      (raised m attempt)
  | .jobOccupied m attempt => attempted s s
      (if (s.version m.key m.etag).any (·.status = .ready) then .answer m .duplicate
        else .jobFail m attempt .thumbnailConflict true false .failed)
      (raised m attempt)
  | .jobComplete m attempt => attempted s
      (s.update m.key m.etag (·.running attempt) fun job => { job with status := .ready, error := none, lease := none, failedAt := none })
      (if s.matching m.key m.etag (·.running attempt) then .answer m .ready else .jobLost m attempt)
      (raised m attempt)
  | .jobLost m attempt => attempted s s
      (if (s.version m.key m.etag).any (·.status = .ready) then .answer m .duplicate
        else .jobFail m attempt .completionRace true false .failed)
      (raised m attempt)
  -- failJob; what it throws inside the catch leaves the message to the queue.
  | .jobFail m attempt code terminal caught outcome => fun reply => match reply with
      | .ok => some
          (s.update m.key m.etag (·.running attempt) fun job => { job with
            status := if terminal then .failed else .pending
            error := some code
            lease := none
            failedAt := if terminal then some s.now else none },
          if code = .thumbnailConflict || code = .completionRace then .jobTidy m attempt else .answer m outcome)
      | .failed applied => some
          (if applied then s.update m.key m.etag (·.running attempt) fun job => { job with
            status := if terminal then .failed else .pending
            error := some code
            lease := none
            failedAt := if terminal then some s.now else none } else s,
          if caught then .answer m .retry else raised m attempt)
      | _ => none
  | .jobTidy m attempt => attempted s s (.answer m .failed) (raised m attempt)
  | .answer m outcome => done (if outcome.again m.final then s.giveBack m else s) .halted
  | .deadMark m => done
      (s.update m.key m.etag (·.status = .failed) fun job => { job with
        error := some (job.error.getD .deadLettered)
        lease := none
        failedAt := some (job.failedAt.getD s.now) })
      (if s.matching m.key m.etag (·.status = .failed) then .deadTidy m else .halted)
  | .deadTidy _ => done s .halted
  -- The flag says whether the row is the candidate of the query.
  | .claimRead key => asked s fun candidate => match s.job key with
      | some job => if candidate && job.status = .pending && job.notBefore.all (· ≤ s.now) && job.lease.all (· < s.now) then
          .claimHead key job.etag job.attempt else .halted
      | none => .halted
  | .claimHead key etag read => done s (if sources key = etag then .claimLease key etag read else .claimReject key etag)
  | .claimReject key etag => done (s.update key etag (fun _ => true) fun job => { job with status := .failed, error := some .sourceChanged }) .halted
  | .claimLease key etag read => done (s.update key etag (·.status = .pending) fun job =>
      { job with status := .processing, lease := some (s.now + defaultLease), attempt := read + 1, error := none }) .halted
  | .failRead key attempt code => done s (match s.job key with
      | some job => if job.running attempt && job.leased s.now then .failWrite key job.etag attempt code else .halted
      | none => .halted)
  | .failWrite key etag attempt code => done
      (s.update key etag (fun job => job.running attempt && job.leased s.now) fun job =>
        if terminalAttempt ≤ attempt then { job with status := .failed, error := some code, lease := none, failedAt := some s.now }
        else { job with
          status := .pending
          error := some code
          lease := none
          notBefore := some s.now
          published := none })
      (if s.matching key etag (fun job => job.running attempt && job.leased s.now) && !(terminalAttempt ≤ attempt) then .send .fail key etag
        else .halted)
  | .transientRead key => done s (match s.job key with
      | some job => if transientDue job && job.failedAt.any (· + recoveryDelay ≤ s.now) && sources key = job.etag then .transientClaim key job.etag
        else .halted
      | none => .halted)
  | .transientClaim key etag => done
      (s.update key etag transientDue fun job => { job with
        status := .pending
        attempt := job.attempt + 1
        error := none
        lease := none
        failedAt := none
        published := none
        notBefore := some s.now })
      (if s.matching key etag transientDue then .send .transient key etag else .halted)
  | .expiredRead key => done s (match s.job key with
      | some job => if job.status = .processing && job.expired s.now then
          (if sources key ≠ job.etag then .expiredRemove key job.etag
            else if maxRecoveryAttempts ≤ job.attempt then .expiredExhaust key job.etag else .expiredClaim key job.etag)
        else .halted
      | none => .halted)
  -- removeThumbnailStateForPath of this version.
  | .expiredRemove key etag => done { s with jobs := s.jobs.filter fun job => !(job.key = key && job.etag = etag) } .halted
  | .expiredExhaust key etag => done
      (s.update key etag (fun job => job.status = .processing && job.expired s.now && maxRecoveryAttempts ≤ job.attempt) fun job =>
        { job with status := .failed, error := some .retryExhausted, lease := none, failedAt := some s.now }) .halted
  | .expiredClaim key etag =>
      let due := fun (job : Job) => job.status = .processing && job.expired s.now && job.attempt < maxRecoveryAttempts && sources key = job.etag
      done
        (s.update key etag due fun job => { job with
          status := .pending
          error := none
          lease := none
          failedAt := none
          published := none })
        (if s.matching key etag due then .send .expired key etag else .halted)
  | .republishRead key => done s (match s.job key with
      | some job => if job.status = .pending && job.published.isNone && job.fallbackDue s.now && sources key = job.etag && job.error ≠ some pixelLimit then
          .send .republish key job.etag else .halted
      | none => .halted)
  -- The flag says whether a cleanup of this derivative was due and has been claimed.
  | .drainRead key etag => asked s fun claimed =>
      if claimed && !s.matching key etag (fun job => job.status ≠ .failed) then .drainDelete key etag else .halted
  -- The flag says whether the object has been deleted.
  | .drainDelete key etag => asked s fun deleted => if deleted then .drainRevived key etag else .halted
  | .drainRevived key etag => done s (if s.matching key etag fun job => job.status ≠ .failed then .regenerate key etag else .halted)
  | .regenerate key etag => done
      (s.update key etag (fun job => job.status ≠ .failed) fun job => { job with
        status := .pending
        error := none
        lease := none
        failedAt := none
        notBefore := some s.now })
      (.send .cleanup key etag)
  | .halted => fun _ => none

def Pc.message : Pc → Option Message
  | .jobRead m | .jobHead m | .jobClaim m _ | .jobRaced m | .jobWork m _ | .jobReturn m _ | .jobStore m _ | .jobAdopt m _ _ | .jobOccupied m _
  | .jobComplete m _ | .jobLost m _ | .jobFail m _ _ _ _ _ | .jobTidy m _ | .answer m _ => some m
  | _ => none

def Pc.letter : Pc → Option Message
  | .deadMark m | .deadTidy m => some m
  | _ => none

structure World where
  store : Store
  flows : List Pc

-- `deliver` may leave a second copy behind. A crash is every call that fails and is not
-- handled: the message is given back.
inductive Action where
  | enqueue (key : Key) (etag size time delay : Nat)
  | deliver (index : Nat) (again : Bool)
  | bury (index : Nat)
  | claim (key : Key)
  | fail (key : Key) (attempt : Nat) (code : ErrorCode)
  | recoverTransient (key : Key)
  | recoverExpired (key : Key)
  | republish (key : Key)
  | drain (key : Key) (etag : Nat)
  | tick (seconds : Nat)
  | reply (flow : Nat) (reply : Reply)
  | crash (flow : Nat)

def World.begin (w : World) (pc : Pc) : World := { w with flows := w.flows++[pc] }

def Store.abandon (s : Store) (pc : Pc) : Store :=
  match pc.message with
  | some m => s.giveBack m
  | none => match pc.letter with
    | some m => { s with dead := m :: s.dead }
    | none => s

def Message.next (m : Message) : Message := { m with attempts := m.attempts + 1 }

def next (sources : Key → Nat) (w : World) : Action → Option World
  | .enqueue key etag size time delay => some (w.begin (.register ⟨key,etag,size,min time w.store.now,w.store.now + delay⟩))
  | .deliver index again => (w.store.queue[index]?).map fun m =>
      { store := { w.store with queue := if again then w.store.queue.set index m.next else w.store.queue.eraseIdx index },
        flows := w.flows++[.jobRead m.next] }
  | .bury index => (w.store.dead[index]?).map fun m =>
      { store := { w.store with dead := w.store.dead.eraseIdx index }, flows := w.flows++[.deadMark m] }
  | .claim key => some (w.begin (.claimRead key))
  | .fail key attempt code => some (w.begin (.failRead key attempt code))
  | .recoverTransient key => some (w.begin (.transientRead key))
  | .recoverExpired key => some (w.begin (.expiredRead key))
  | .republish key => some (w.begin (.republishRead key))
  | .drain key etag => some (w.begin (.drainRead key etag))
  | .tick seconds => some { w with store := { w.store with now := w.store.now + seconds } }
  | .reply index reply => (w.flows[index]?).bind fun pc => (pc.call sources w.store reply).map fun step => ⟨step.1,w.flows.set index step.2⟩
  | .crash index => (w.flows[index]?).map fun pc => ⟨w.store.abandon pc,w.flows.set index .halted⟩
end LedgeTopOps.ThumbnailHandoff
