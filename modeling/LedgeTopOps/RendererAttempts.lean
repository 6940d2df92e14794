import LedgeTopOps.StepRuns

namespace LedgeTopOps.RendererAttempts
open StepRuns

-- The thumbnail job of one source version, between two renderers and two recovery
-- sweeps. Times are seconds.
inductive Status where
  | pending | processing | ready | failed
  deriving DecidableEq

inductive ErrorCode where
  | sourceChanged | unsupportedFile | pixelLimitExceeded | thumbnailProcessingError | queuePublishFailed | videoThumbnailDisabled
  | sourceTransferFailed | retryExhausted | completionRace
  | other (code : Nat)

structure Job where
  status : Status
  attempt : Nat
  (lease notBefore : Option Nat)
  error : Option ErrorCode
  failedAt : Option Nat

def maxRecoveryAttempts : Nat := 12
def terminalAttempt : Nat := 6
def defaultLease : Nat := 5 * 60
def videoInitialLease : Nat := 15 * 60
def fallbackGrace : Nat := 5 * 60
def recoveryDelay : Nat := 15 * 60

def ErrorCode.transient : ErrorCode → Bool
  | .thumbnailProcessingError | .queuePublishFailed | .videoThumbnailDisabled | .sourceTransferFailed => true
  | _ => false

-- `issued` and `ended` are histories: the attempt numbers of the successful claims, and
-- the attempts that have failed, been completed, gone into recovery or been superseded.
structure Store where
  now : Nat
  job : Option Job
  (issued ended : List Nat)

def Job.running (job : Job) (attempt : Nat) : Bool := job.status = .processing && job.attempt = attempt

def Store.write (s : Store) (job : Option Job) : Store :=
  { s with
    job := job
    ended := match s.job with
      | some old => if old.status = .processing && !job.any (·.running old.attempt) then old.attempt :: s.ended else s.ended
      | none => s.ended }

def Store.claim (s : Store) (job : Job) : Store := { s.write (some job) with issued := job.attempt :: s.issued }

def Store.matching (s : Store) (condition : Job → Bool) : Bool := s.job.any condition
def Store.update (s : Store) (condition : Job → Bool) (change : Job → Job) : Store :=
  match s.job with
  | some job => if condition job then s.write (some (change job)) else s
  | none => s

def Job.expired (job : Job) (now : Nat) : Bool := job.lease.all (· ≤ now)
def Job.leased (job : Job) (now : Nat) : Bool := job.lease.any (now < ·)
def Job.fallbackDue (job : Job) (now : Nat) : Bool := job.notBefore.all (· + fallbackGrace ≤ now)

-- A renderer API write is for the attempt whose lease token was verified.
def Job.current (job : Job) (attempt now : Nat) : Bool := job.running attempt && job.leased now

inductive Pc where
  -- handleClaim
  | claimRead
  | claimHead (read : Nat)
  | claimReject (code : ErrorCode)
  | claimLease (read : Nat) (video : Bool)
  -- handleComplete
  | completeRead (attempt : Nat)
  | completeHead (attempt : Nat)
  | completeReject (attempt : Nat)
  | completeWrite (attempt : Nat)
  -- handleHeartbeat
  | heartbeatRead (attempt : Nat)
  | heartbeatWrite (attempt : Nat) (lease : Nat)
  -- handleFail
  | failRead (attempt : Nat) (code : ErrorCode)
  | failWrite (attempt : Nat) (code : ErrorCode)
  -- processThumbnailJob
  | jobRead
  | jobHead
  | jobClaim (refused : Option ErrorCode)
  | jobWork (attempt : Nat)
  | jobFail (attempt : Nat) (code : ErrorCode) (terminal : Bool)
  | jobReturn (attempt : Nat) (code : ErrorCode)
  | jobComplete (attempt : Nat)
  | jobRaced (attempt : Nat)
  -- recoverTransientThumbnailFailures, recoverExpiredThumbnailLeases
  | transientRead
  | transientHead
  | transientClaim
  | expiredRead
  | expiredHead (read : Nat)
  | expiredRemove
  | expiredExhaust
  | expiredClaim
  | publish
  | publishFailed
  | halted

-- `source` answers what is found of the source, `worked` what the container gave.
inductive Worked where
  | failed (code : ErrorCode) (terminal : Bool)
  | limited (code : ErrorCode)
  | rendered

inductive Source where
  | image | video
  | changed
  | unsupported (code : ErrorCode)

inductive Reply where
  | ok
  | flag (yes : Bool)
  | source (found : Source)
  | worked (result : Worked)

def done (s : Store) (next : Pc) : Reply → Option (Store × Pc)
  | .ok => some (s,next)
  | _ => none

def asked (s : Store) (next : Bool → Pc) : Reply → Option (Store × Pc)
  | .flag yes => some (s,next yes)
  | _ => none

def Pc.call (s : Store) : Pc → Reply → Option (Store × Pc)
  -- The flag says whether the row is the candidate of this query, for its media kind and index.
  | .claimRead => asked s fun chosen => match s.job with
      | some job => if chosen && job.status = .pending && job.notBefore.all (· ≤ s.now) && job.lease.all (· < s.now) then .claimHead job.attempt else .halted
      | none => .halted
  | .claimHead read => fun reply => match reply with
      | .source .image => some (s,.claimLease read false)
      | .source .video => some (s,.claimLease read true)
      | .source .changed => some (s,.claimReject .sourceChanged)
      | .source (.unsupported _) => some (s,.claimReject .unsupportedFile)
      | _ => none
  | .claimReject code => done (s.update (fun _ => true) fun job => { job with status := .failed, error := some code }) .halted
  -- The number is the one that was read, and one more.
  | .claimLease read video => done (match s.job with
      | some job => if job.status = .pending then
          s.claim { job with status := .processing, attempt := read + 1, error := none, lease := some (s.now + if video then videoInitialLease else defaultLease) }
        else s
      | none => s) .halted
  | .completeRead attempt => done s (if s.matching (·.current attempt s.now) then .completeHead attempt else .halted)
  | .completeHead attempt => fun reply => match reply with
      | .source .changed => some (s,.completeReject attempt)
      | .flag valid => some (s,if valid then .completeWrite attempt else .halted)
      | _ => none
  | .completeReject attempt => done
      (s.update (·.current attempt s.now) fun job => { job with status := .failed, error := some .sourceChanged }) .halted
  | .completeWrite attempt => done (s.update (·.current attempt s.now) fun job => { job with status := .ready, lease := none, error := none }) .halted
  | .heartbeatRead attempt => done s (match s.job with
      | some job => if job.current attempt s.now then .heartbeatWrite attempt (max (job.lease.getD 0) (s.now + defaultLease)) else .halted
      | none => .halted)
  | .heartbeatWrite attempt lease => done (s.update (·.current attempt s.now) fun job => { job with lease := some lease }) .halted
  | .failRead attempt code => done s (if s.matching (·.current attempt s.now) then .failWrite attempt code else .halted)
  | .failWrite attempt code => done (s.update (·.current attempt s.now) fun job =>
      if terminalAttempt ≤ attempt then { job with status := .failed, error := some code, lease := none, failedAt := some s.now }
      else { job with status := .pending, error := some code, lease := none, notBefore := some s.now }) .halted
  | .jobRead => asked s fun wanted => match s.job with
      | some job => if wanted && job.status ≠ .ready && job.status ≠ .failed && !(job.status = .processing && job.leased s.now) &&
          job.fallbackDue s.now then .jobHead else .halted
      | none => .halted
  | .jobHead => fun reply => match reply with
      | .source .image => some (s,.jobClaim none)
      | .source .video => some (s,.halted)
      | .source .changed => some (s,.jobClaim (some .sourceChanged))
      | .source (.unsupported code) => some (s,.jobClaim (some code))
      | _ => none
  -- claimJob: the number is bumped inside the UPDATE.
  | .jobClaim refused => done
      (match s.job with
        | some job => if (job.status = .pending || (job.status = .processing && job.expired s.now)) && job.fallbackDue s.now then
            s.claim { job with status := .processing, attempt := job.attempt + 1, lease := some (s.now + defaultLease) }
          else s
        | none => s)
      (match s.job with
        | some job => if (job.status = .pending || (job.status = .processing && job.expired s.now)) && job.fallbackDue s.now then
            (match refused with
              | some code => .jobFail (job.attempt + 1) code true
              | none => .jobWork (job.attempt + 1))
          else .halted
        | none => .halted)
  | .jobWork attempt => fun reply => match reply with
      | .worked (.failed code terminal) => some (s,.jobFail attempt code terminal)
      | .worked (.limited code) => some (s,.jobReturn attempt code)
      | .worked .rendered => some (s,.jobComplete attempt)
      | _ => none
  -- The writes of the queue consumer do not look at the lease.
  | .jobFail attempt code terminal => done (s.update (·.running attempt) fun job =>
      { job with status := if terminal then .failed else .pending, error := some code, lease := none, failedAt := if terminal then some s.now else none }) .halted
  | .jobReturn attempt code => done (s.update (·.running attempt) fun job =>
      { job with status := .pending, error := some code, lease := none, failedAt := none, notBefore := some s.now }) .halted
  | .jobComplete attempt => done
      (s.update (·.running attempt) fun job => { job with status := .ready, error := none, lease := none, failedAt := none })
      (if s.matching (·.running attempt) then .halted else .jobRaced attempt)
  | .jobRaced attempt => done s (if s.matching (·.status = .ready) then .halted else .jobFail attempt .completionRace true)
  | .transientRead => done s (if s.matching (fun job => job.status = .failed && job.error.any (·.transient) && job.attempt < maxRecoveryAttempts &&
      job.failedAt.any (· + recoveryDelay ≤ s.now)) then .transientHead else .halted)
  | .transientHead => asked s fun eligible => if eligible then .transientClaim else .halted
  | .transientClaim =>
      let due := fun (job : Job) => job.status = .failed && job.error.any (·.transient) && job.attempt < maxRecoveryAttempts
      done (s.update due fun job => { job with
          status := .pending
          attempt := job.attempt + 1
          error := none
          lease := none
          failedAt := none
          notBefore := some s.now })
        (if s.matching due then .publish else .halted)
  | .expiredRead => done s (match s.job with
      | some job => if job.status = .processing && job.expired s.now then .expiredHead job.attempt else .halted
      | none => .halted)
  | .expiredHead read => asked s fun current =>
      if current then (if maxRecoveryAttempts ≤ read then .expiredExhaust else .expiredClaim) else .expiredRemove
  -- removeThumbnailStateForPath of this source version.
  | .expiredRemove => done (s.write none) .halted
  | .expiredExhaust => done (s.update (fun job => job.status = .processing && job.expired s.now && maxRecoveryAttempts ≤ job.attempt) fun job =>
      { job with status := .failed, error := some .retryExhausted, lease := none, failedAt := some s.now }) .halted
  | .expiredClaim =>
      let due := fun (job : Job) => job.status = .processing && job.expired s.now && job.attempt < maxRecoveryAttempts
      -- The UPDATE checks the file index and the tombstones again.
      fun reply => match reply with
        | .flag current => some (if current then s.update due fun job => { job with status := .pending, error := none, lease := none, failedAt := none } else s,
            if current && s.matching due then .publish else .halted)
        | _ => none
  | .publish => asked s fun sent => if sent then .halted else .publishFailed
  | .publishFailed => done (s.update (·.status = .pending) fun job => { job with status := .failed, error := some .queuePublishFailed, failedAt := some s.now }) .halted
  | .halted => fun _ => none

structure World where
  store : Store
  flows : List Pc
  tokens : List Nat

-- Requests with a lease token repeat one that a claim has given out.
inductive Action where
  | claim
  | complete (token : Nat)
  | heartbeat (token : Nat)
  | fail (token : Nat) (code : ErrorCode)
  | process
  | recoverTransient
  | recoverExpired
  | tick (seconds : Nat)
  | reply (flow : Nat) (reply : Reply)

def World.begin (w : World) (pc : Pc) : World := { w with flows := w.flows++[pc] }
def World.present (w : World) (token : Nat) (pc : Pc) : Option World := if token ∈ w.tokens then some (w.begin pc) else none

-- The token that a claim of the renderer API gives out.
def Pc.token (s : Store) : Pc → Option Nat
  | .claimLease read _ => if s.matching (·.status = .pending) then some (read + 1) else none
  | _ => none

def next (w : World) : Action → Option World
  | .claim => some (w.begin .claimRead)
  | .complete token => w.present token (.completeRead token)
  | .heartbeat token => w.present token (.heartbeatRead token)
  | .fail token code => w.present token (.failRead token code)
  | .process => some (w.begin .jobRead)
  | .recoverTransient => some (w.begin .transientRead)
  | .recoverExpired => some (w.begin .expiredRead)
  | .tick seconds => some { w with store := { w.store with now := w.store.now + seconds } }
  | .reply index reply => (w.flows[index]?).bind fun pc => (pc.call w.store reply).map fun step =>
      { store := step.1, flows := w.flows.set index step.2, tokens := (pc.token w.store).toList++w.tokens }
end LedgeTopOps.RendererAttempts
