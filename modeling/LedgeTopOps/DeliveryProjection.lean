import LedgeTopOps.KeyedRows
import LedgeTopOps.StepRuns
import Mathlib.Data.List.Infix

namespace LedgeTopOps.DeliveryProjection
open KeyedRows StepRuns

-- Times are milliseconds: every stored time is text of one format, which the
-- source compares through julianday.
inductive Status where
  | pending | processing | completed | failed
deriving DecidableEq

inductive Reason where
  | authoritySuppressed | stagingFence | stagingSchema | stagingInvalid | stagingFailed

structure Receipt where
  receiptKey : String
  sequence : Nat
  (r2Key objectVersion : String)
  objectEtag : Option String
  currentPresent : Bool
  observedEventAt : String

structure Target where
  (receiptKey grantId : String)
  grantVersion : Int
  identityId : String

structure Job where
  (receiptKey grantId identityId : String)
  grantVersion : Int
  status : Status
  attemptCount : Nat
  nextAttemptAt : Int
  leaseToken : Option String
  leaseExpiresAt : Option Int
  lastReasonCode : Option Reason
  completedAt : Option Int
  updatedAt : Int

abbrev Key := String × String × String
def Target.key (target : Target) : Key := (target.receiptKey,target.grantId,target.identityId)
def Job.key (job : Job) : Key := (job.receiptKey,job.grantId,job.identityId)

-- lastSequence is the AUTOINCREMENT counter of the receipts.
structure Database where
  receipts : List Receipt
  targets : List Target
  seals : List String
  jobs : List Job
  lastSequence : Nat

def maxAttempts : Nat := 3
def leaseMinutes : Int := 5
def minute : Int := 60000
def defaultLimit : Nat := 25
def maxLimit : Nat := 50
def terminal (job : Job) : Bool := job.status == .completed || job.status == .failed
def elapsed (time : Option Int) (now : Int) : Bool := time.any fun time => decide (time ≤ now)

def updateWhere (jobs : List Job) (test : Job → Bool) (change : Job → Job) : Nat × List Job :=
  (jobs.countP test,jobs.map fun job => if test job then change job else job)

-- The acceptance batch: receipt, targets, seal, and by the seal's trigger one
-- pending job for each target. A failed constraint rolls all of it back.
def newJob (now : Int) (target : Target) : Job :=
  ⟨target.receiptKey,target.grantId,target.identityId,target.grantVersion,.pending,0,now,none,none,none,none,now⟩

structure Change where
  (receiptKey key objectVersion : String)
  etag : Option String
  present : Bool
  eventAt : String

def accept (db : Database) (change : Change) (targets : List (String × Int × String)) (indexApplied : Bool) (now : Int) : Database :=
  let rows := targets.map fun (grantId,grantVersion,identityId) => Target.mk change.receiptKey grantId grantVersion identityId
  if db.receipts.any (fun receipt => receipt.receiptKey == change.receiptKey)
    || db.receipts.any (fun receipt => receipt.r2Key == change.key && receipt.objectVersion == change.objectVersion
        && receipt.currentPresent == change.present)
    || !indexApplied || !decide (rows.map Target.key).Nodup || rows.any (fun row => decide (row.grantVersion < 1)) then db
  else { db with
    receipts := db.receipts++[⟨change.receiptKey,db.lastSequence + 1,change.key,change.objectVersion,change.etag,
      change.present,change.eventAt⟩]
    targets := db.targets++rows
    seals := db.seals++[change.receiptKey]
    jobs := db.jobs++rows.map (newJob now)
    lastSequence := db.lastSequence + 1 }

structure ProjectionJobRow where
  (receiptKey grantId identityId : String)
  grantVersion : Int
  (attemptCount sequence : Nat)
  (r2Key providerObjectVersion : String)
  contentEtag : Option String
  currentPresent : Bool
  observedEventAt : String

def ProjectionJobRow.key (row : ProjectionJobRow) : Key := (row.receiptKey,row.grantId,row.identityId)

-- Both NOT EXISTS clauses count the same rows; the candidate query correlates
-- them with its own target and receipt, the claim binds the row it read.
def earlierOutstanding (db : Database) (grantId : String) (grantVersion : Int) (identityId r2Key : String) (sequence : Nat) : Bool :=
  db.jobs.any fun job => db.targets.any fun target => db.receipts.any fun receipt =>
    target.key == job.key && receipt.receiptKey == job.receiptKey
      && target.grantId == grantId && target.grantVersion == grantVersion && target.identityId == identityId
      && receipt.r2Key == r2Key && decide (receipt.sequence < sequence) && !terminal job

def claimable (job : Job) (now : Int) : Bool :=
  (job.status == .pending && decide (job.nextAttemptAt ≤ now)) || (job.status == .processing && elapsed job.leaseExpiresAt now)

def rowOf (job : Job) (receipt : Receipt) : ProjectionJobRow :=
  ⟨job.receiptKey,job.grantId,job.identityId,job.grantVersion,job.attemptCount,receipt.sequence,receipt.r2Key,
    receipt.objectVersion,receipt.objectEtag,receipt.currentPresent,receipt.observedEventAt⟩

def candidates (db : Database) (now : Int) : List ProjectionJobRow :=
  db.jobs.flatMap fun job => db.targets.flatMap fun target => db.receipts.filterMap fun receipt =>
    if target.key == job.key && receipt.receiptKey == job.receiptKey && db.seals.contains receipt.receiptKey
      && decide (job.attemptCount < maxAttempts) && claimable job now
      && !earlierOutstanding db target.grantId target.grantVersion target.identityId receipt.r2Key receipt.sequence
    then some (rowOf job receipt) else none

def firstRow (left right : ProjectionJobRow) : Bool :=
  ((compare left.sequence right.sequence).then <| (compare left.receiptKey right.receiptKey).then <|
    (compare left.grantId right.grantId).then (compare left.identityId right.identityId)).isLE

def findClaimableJob (db : Database) (now : Int) : Option ProjectionJobRow :=
  ((candidates db now).mergeSort firstRow).head?

-- What the types and the schema leave to isProjectionJob, with Date.parse.
def isProjectionJob (parses : String → Bool) (row : ProjectionJobRow) : Bool :=
  row.receiptKey.length == 64 && decide (0 < row.r2Key.length) && decide (0 < row.providerObjectVersion.length)
    && parses row.observedEventAt && decide (0 < row.sequence) && decide (row.sequence ≤ 9007199254740991)
    && decide (row.attemptCount < maxAttempts)

def claimJob (db : Database) (row : ProjectionJobRow) (leaseToken : String) (now : Int) : Bool × Database :=
  let (changes,jobs) := updateWhere db.jobs
    (fun job => job.key == row.key && job.attemptCount == row.attemptCount && claimable job now
      && !earlierOutstanding db row.grantId row.grantVersion row.identityId row.r2Key row.sequence)
    fun job => { job with
      status := .processing, attemptCount := job.attemptCount + 1, leaseToken := some leaseToken
      leaseExpiresAt := some (now + leaseMinutes * minute), updatedAt := now, lastReasonCode := none }
  (changes == 1,{ db with jobs })

def exhausted (now : Int) (job : Job) : Bool :=
  job.status == .processing && decide (maxAttempts ≤ job.attemptCount) && elapsed job.leaseExpiresAt now

def firstExhausted (left right : Job) : Bool :=
  ((compare left.leaseExpiresAt right.leaseExpiresAt).then <| (compare left.receiptKey right.receiptKey).then <|
    (compare left.grantId right.grantId).then (compare left.identityId right.identityId)).isLE

def terminalizeExpiredExhaustedJobs (db : Database) (limit : Nat) (now : Int) : Nat × Database :=
  let chosen := (((db.jobs.filter (exhausted now)).mergeSort firstExhausted).take limit).map Job.key
  let (changes,jobs) := updateWhere db.jobs (fun job => chosen.contains job.key) fun job => { job with
    status := .failed, leaseToken := none, leaseExpiresAt := none, nextAttemptAt := now
    lastReasonCode := some .stagingFailed, updatedAt := now }
  (changes,{ db with jobs })

-- The WHERE clause of completeJob and of retryOrFailJob.
def heldBy (row : ProjectionJobRow) (leaseToken : String) (job : Job) : Bool :=
  job.key == row.key && job.status == .processing && job.leaseToken == some leaseToken

def completeJob (db : Database) (row : ProjectionJobRow) (leaseToken : String) (reason : Option Reason) (now : Int) :
    Bool × Database :=
  let (changes,jobs) := updateWhere db.jobs (heldBy row leaseToken) fun job => { job with
    status := .completed, completedAt := some now, leaseToken := none, leaseExpiresAt := none
    nextAttemptAt := now, lastReasonCode := reason, updatedAt := now }
  (changes == 1,{ db with jobs })

def retryMinutes (attempt : Nat) : Nat := min 60 (5 * Nat.pow 2 (attempt - 1))

inductive RetryOutcome where
  | retried | failed | lost

def retryOrFailJob (db : Database) (row : ProjectionJobRow) (leaseToken : String) (reason : Reason) (now : Int) :
    RetryOutcome × Database :=
  let attempt := row.attemptCount + 1
  let last := decide (maxAttempts ≤ attempt)
  let (changes,jobs) := updateWhere db.jobs (heldBy row leaseToken) fun job => { job with
    status := if last then .failed else .pending
    nextAttemptAt := if last then now else now + retryMinutes attempt * minute
    leaseToken := none, leaseExpiresAt := none, lastReasonCode := some reason, updatedAt := now }
  (if changes ≠ 1 then .lost else if last then .failed else .retried,{ db with jobs })

def includes (text part : String) : Bool := decide (part.toList <:+: text.toList)

def failureReason (message : String) : Reason :=
  if includes message "staging-fence-lost" then .stagingFence
  else if includes message "schema-unavailable" then .stagingSchema
  else if includes message "notification-sequence" then .stagingSchema
  else .stagingFailed

def limitFor (options : Option Int) : Nat := match options with
  | none => defaultLimit
  | some value => if value ≤ 9007199254740991 ∧ 0 < value then min value.toNat maxLimit else defaultLimit

structure Result where
  (claimed completed suppressed retried failed : Nat)

-- Where an invocation of projectAuthenticatedDeliveryChanges stands between two
-- statements. From claiming on it carries the row it read and its lease token.
inductive Phase where
  | sweeping
  | finding
  | claiming (row : ProjectionJobRow) (leaseToken : String)
  | staging (row : ProjectionJobRow) (leaseToken : String)
  | completing (row : ProjectionJobRow) (leaseToken : String) (reason : Option Reason)
  | retrying (row : ProjectionJobRow) (leaseToken : String) (reason : Reason)
  | returned

def Phase.row : Phase → Option ProjectionJobRow
  | .claiming row _ => some row
  | .staging row _ => some row
  | .completing row _ _ => some row
  | .retrying row _ _ => some row
  | _ => none

def Phase.token : Phase → Option String
  | .claiming _ leaseToken => some leaseToken
  | .staging _ leaseToken => some leaseToken
  | .completing _ leaseToken _ => some leaseToken
  | .retrying _ leaseToken _ => some leaseToken
  | _ => none

structure Worker where
  (id limit count : Nat)
  phase : Phase
  result : Result

structure World where
  db : Database
  workers : List Worker
  issued : List String

def World.initial : World := ⟨⟨[],[],[],[],0⟩,[],[]⟩

inductive Staged where
  | staged
  | suppressed
  | raised (message : String)

inductive Response where
  | answered
  | refused (message : String)
  | lost (message : String)

inductive Event where
  | accept (change : Change) (targets : List (String × Int × String)) (indexApplied : Bool) (now : Int)
  | invoke (id : Nat) (options : Option Int) (ready : Bool)
  | sweep (id : Nat) (now : Int)
  | find (id : Nat) (now : Int) (leaseToken : String)
  | claim (id : Nat) (now : Int)
  | stage (id : Nat) (outcome : Staged)
  | complete (id : Nat) (now : Int) (response : Response)
  | retry (id : Nat) (now : Int)
  | die (id : Nat)

def Worker.next (worker : Worker) : Worker := { worker with count := worker.count + 1, phase := .finding }

def noteCompleted (result : Result) (reason : Option Reason) (changed : Bool) : Result :=
  if changed then { result with
    completed := result.completed + 1
    suppressed := result.suppressed + if reason.isSome then 1 else 0 } else result

def noteRetried (result : Result) : RetryOutcome → Result
  | .retried => { result with retried := result.retried + 1 }
  | .failed => { result with failed := result.failed + 1 }
  | .lost => result

def runWorker (parses : String → Bool) (db : Database) (worker : Worker) : Event → Database × Worker
  | .sweep _ now => match worker.phase with
    | .sweeping =>
      let (changes,after) := terminalizeExpiredExhaustedJobs db worker.limit now
      (after,{ worker with phase := .finding, result := { worker.result with failed := worker.result.failed + changes } })
    | _ => (db,worker)
  | .find _ now leaseToken => match worker.phase with
    | .finding =>
      if worker.count < worker.limit then match findClaimableJob db now with
        | none => (db,{ worker with phase := .returned })
        | some row => if isProjectionJob parses row then (db,{ worker with phase := .claiming row leaseToken })
          else (db,{ worker with phase := .returned })
      else (db,{ worker with phase := .returned })
    | _ => (db,worker)
  | .claim _ now => match worker.phase with
    | .claiming row leaseToken =>
      let (claimed,after) := claimJob db row leaseToken now
      if claimed then (after,{ worker with
        phase := .staging row leaseToken, result := { worker.result with claimed := worker.result.claimed + 1 } })
      else (after,worker.next)
    | _ => (db,worker)
  | .stage _ outcome => match worker.phase with
    | .staging row leaseToken => match outcome with
      | .staged => (db,{ worker with phase := .completing row leaseToken none })
      | .suppressed => (db,{ worker with phase := .completing row leaseToken (some .authoritySuppressed) })
      | .raised message => (db,{ worker with phase := .retrying row leaseToken (failureReason message) })
    | _ => (db,worker)
  | .complete _ now response => match worker.phase with
    | .completing row leaseToken reason => match response with
      | .answered =>
        let (changed,after) := completeJob db row leaseToken reason now
        (after,{ worker.next with result := noteCompleted worker.result reason changed })
      | .refused message => (db,{ worker with phase := .retrying row leaseToken (failureReason message) })
      | .lost message =>
        ((completeJob db row leaseToken reason now).2,{ worker with phase := .retrying row leaseToken (failureReason message) })
    | _ => (db,worker)
  | .retry _ now => match worker.phase with
    | .retrying row leaseToken reason =>
      let (outcome,after) := retryOrFailJob db row leaseToken reason now
      (after,{ worker.next with result := noteRetried worker.result outcome })
    | _ => (db,worker)
  | _ => (db,worker)

def Event.worker : Event → Option Nat
  | .accept _ _ _ _ => none
  | .invoke id _ _ => some id
  | .sweep id _ => some id
  | .find id _ _ => some id
  | .claim id _ => some id
  | .stage id _ => some id
  | .complete id _ _ => some id
  | .retry id _ => some id
  | .die id => some id

def Event.token : Event → List String
  | .find _ _ leaseToken => [leaseToken]
  | _ => []

def advance (parses : String → Bool) (world : World) (event : Event) : World := match event with
  | .accept change targets indexApplied now => { world with db := accept world.db change targets indexApplied now }
  | .invoke id options ready =>
    if ready then { world with workers := world.workers++[⟨id,limitFor options,0,.sweeping,⟨0,0,0,0,0⟩⟩] } else world
  | .die id => { world with workers := drop Worker.id world.workers id }
  | event => match event.worker.bind (find Worker.id world.workers) with
    | none => world
    | some worker =>
      let (db,after) := runWorker parses world.db worker event
      ⟨db,amend Worker.id world.workers worker.id fun _ => after,world.issued++event.token⟩

-- randomUUID does not repeat, and an invocation is an invocation of its own.
def Admissible (world : World) : Event → Prop
  | .invoke id _ _ => ∀ worker ∈ world.workers, worker.id ≠ id
  | .find _ _ leaseToken => leaseToken ∉ world.issued
  | _ => True

def Step (parses : String → Bool) : World → Event → World → Prop :=
  Guarded (fun before event after => advance parses before event = after) Admissible
end LedgeTopOps.DeliveryProjection
