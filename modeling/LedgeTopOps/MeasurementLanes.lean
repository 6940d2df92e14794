import LedgeTopOps.KeyedRows
import Mathlib.Data.List.Sort

namespace LedgeTopOps.MeasurementLanes
open KeyedRows

inductive Status where
  | queued
  | running
  | complete
  | failed
  | cancelled
  deriving DecidableEq

def Status.active : Status → Bool
  | .queued => true
  | .running => true
  | _ => false

-- The columns the two job tables share. Times are milliseconds; ids and lease
-- tokens are random UUIDs, which a counter stands for.
structure Job where
  id : Nat
  measurementId : String
  status : Status
  authority : Bool
  leaseOwner : Option String
  leaseToken : Option Nat
  leaseExpiresAt : Option Int
  (resultJson errorCode : Option String)
  createdAt : Int
  deriving DecidableEq

structure Calculation where
  job : Job
  revision : Int
  parentCalculationId : Option Nat
  deriving DecidableEq

structure Ephemeral where
  job : Job
  (scopeKey pageHash : String)
  expiresAt : Int
  deriving DecidableEq

structure Measurement where
  id : String
  revision : Int
  deleted : Bool
  deriving DecidableEq

def Calculation.id (row : Calculation) : Nat := row.job.id
def Ephemeral.id (row : Ephemeral) : Nat := row.job.id

-- `leased` says whether a row of dataset_operations, processing_jobs or
-- derivative_jobs has the status 'leased'.
structure Database where
  measurements : List Measurement
  calculations : List Calculation
  ephemerals : List Ephemeral
  leased : Bool
  deriving DecidableEq

inductive Lane where
  | calculation
  | ephemeral
  deriving DecidableEq

inductive Purpose where
  | heartbeat
  | finish (resultJson errorCode : Option String)
  deriving DecidableEq

structure Checked where
  lane : Lane
  id : Nat
  owner : String
  token : Nat
  purpose : Purpose
  deriving DecidableEq

structure World where
  database : Database
  now : Int
  minted : Nat
  checked : List Checked
  deriving DecidableEq

def World.initial : World := ⟨⟨[],[],[],false⟩,0,0,[]⟩
def leaseDuration : Int := 90000

-- An SQL comparison with a missing lease is not true.
def expiresAfter (lease : Option Int) (time : Int) : Bool := lease.any fun expires => decide (expires > time)
def expiresBy (lease : Option Int) (time : Int) : Bool := lease.any fun expires => decide (expires ≤ time)

def Job.released (job : Job) (status : Status) (errorCode : Option String) : Job :=
  { job with
    authority := false
    status := status
    errorCode := errorCode
    leaseOwner := none
    leaseToken := none
    leaseExpiresAt := none }

def Job.interrupted (time : Int) (job : Job) : Job :=
  if job.status = .running ∧ expiresBy job.leaseExpiresAt time then job.released .failed (some "worker_interrupted") else job

def Job.holds (job : Job) (owner : String) (token : Nat) : Bool :=
  decide (job.status = .running) && decide (job.leaseOwner = some owner) && decide (job.leaseToken = some token)

def Job.claimed (job : Job) (owner : String) (token : Nat) (expires : Int) : Job :=
  { job with status := .running, leaseOwner := some owner, leaseToken := some token, leaseExpiresAt := some expires }

def Job.finished (job : Job) (resultJson errorCode : Option String) : Job :=
  { job.released (if errorCode.isSome then .failed else .complete) errorCode with resultJson := resultJson }

def Calculation.map (change : Job → Job) (row : Calculation) : Calculation := { row with job := change row.job }
def Ephemeral.map (change : Job → Job) (row : Ephemeral) : Ephemeral := { row with job := change row.job }

def current (measurements : List Measurement) (row : Calculation) : Bool :=
  measurements.any fun measurement => decide (measurement.id = row.job.measurementId) && !measurement.deleted
    && decide (measurement.revision = row.revision)

def precedes (left right : Job) : Prop := left.createdAt < right.createdAt ∨ (left.createdAt = right.createdAt ∧ left.id ≤ right.id)

instance : DecidableRel precedes := fun _ _ => inferInstanceAs (Decidable (_ ∨ _))

def ordered (jobs : List Job) : List Job := jobs.insertionSort precedes
def oldestQueued (jobs : List Job) : Option Job := (ordered (jobs.filter fun job => decide (job.status = .queued))).head?

def activeCount (jobs : List Job) : Nat := (jobs.filter fun job => job.status.active).length

def retained (terminal : List Job) (protectedIds : List Nat) : Option (List Nat) :=
  let kept := (terminal.filter fun job => protectedIds.contains job.id).map Job.id
  if kept.length > 19 then none
  else some (terminal.foldl (fun keep job =>
    if keep.length ≥ 19 ∨ keep.contains job.id then keep else keep++[job.id]) kept)

def enqueueCalculation (database : Database) (id : Nat) (measurementId : String) (revision : Int)
    (attached parent : Option Nat) (counted at_ : Int) : Option Database := do
  let measurement ← database.measurements.find? fun row => decide (row.id = measurementId) && !row.deleted
  if measurement.revision ≠ revision then none
  let active := activeCount (database.calculations.map Calculation.job)
    + activeCount ((database.ephemerals.filter fun row => decide (row.expiresAt > counted)).map Ephemeral.job)
  if active ≥ 20 then none
  if database.calculations.any fun row =>
      decide (row.job.measurementId = measurementId) && decide (row.revision = revision) && row.job.status.active then none
  let own := database.calculations.filter fun row => decide (row.job.measurementId = measurementId)
  let terminal := (ordered ((own.map Calculation.job).filter fun job => !job.status.active)).reverse
  let parents := (own.filter fun row => row.job.status.active).filterMap Calculation.parentCalculationId
  let keep ← retained terminal (attached.toList++parent.toList++parents)
  let remaining := database.calculations.filter fun row =>
    decide (row.job.measurementId ≠ measurementId) || row.job.status.active || keep.contains row.id
  return { database with
    calculations := remaining++[⟨⟨id,measurementId,.queued,true,none,none,none,none,none,at_⟩,revision,parent⟩] }

def cancelJob (matched : Bool) (job : Job) : Job :=
  if matched && job.status.active then job.released .cancelled job.errorCode else job

def cancelCalculation (database : Database) (measurementId : String) (id : Nat) : Database :=
  let matched (row : Calculation) := decide (row.id = id) && decide (row.job.measurementId = measurementId)
  { database with calculations := database.calculations.map fun row => row.map (cancelJob (matched row)) }

def claimCalculation (database : Database) (owner : String) (token : Nat) (at_ : Int) : Database :=
  if database.ephemerals.any fun row =>
      decide (row.job.status = .running) && expiresAfter row.job.leaseExpiresAt at_ && decide (row.expiresAt > at_) then database
  else
    let interrupted := { database with calculations := database.calculations.map (Calculation.map (Job.interrupted at_)) }
    if interrupted.calculations.any fun row => decide (row.job.status = .running) then interrupted
    else if database.leased then interrupted
    else
      let checked := interrupted.calculations.map fun row =>
        if row.job.status = .queued ∧ current database.measurements row = false then
          row.map fun job => { job with authority := false, status := .cancelled }
        else row
      match oldestQueued (checked.map Calculation.job) with
      | none => { interrupted with calculations := checked }
      | some job => { interrupted with
        calculations := amend Calculation.id checked job.id (Calculation.map fun row => row.claimed owner token (at_+leaseDuration)) }

def liveCalculation (database : Database) (id : Nat) (owner : String) (token : Nat) (at_ : Int) : Bool :=
  database.calculations.any fun row => decide (row.id = id) && row.job.holds owner token
    && expiresAfter row.job.leaseExpiresAt at_ && current database.measurements row

def heartbeatCalculation (database : Database) (id : Nat) (owner : String) (token : Nat) (at_ : Int) : Database :=
  { database with calculations := amend Calculation.id database.calculations id (Calculation.map fun job =>
    if job.holds owner token then { job with leaseExpiresAt := some (at_+leaseDuration) } else job) }

def finishCalculation (database : Database) (id : Nat) (owner : String) (token : Nat) (resultJson errorCode : Option String)
    (at_ : Int) : Database :=
  if liveCalculation database id owner token at_ then
    { database with calculations := amend Calculation.id database.calculations id (Calculation.map fun job =>
      if job.leaseOwner = some owner ∧ job.leaseToken = some token then job.finished resultJson errorCode else job) }
  else database

def prune (database : Database) (at_ : Int) : Database :=
  { database with ephemerals := database.ephemerals.filter fun row => !decide (row.expiresAt ≤ at_) }

def enqueueEphemeral (database : Database) (id : Nat) (scopeKey pageHash measurementId : String) (expiresAt : Int)
    (pruned at_ : Int) : Option Database := do
  let kept := prune database pruned
  if activeCount (kept.calculations.map Calculation.job)+activeCount (kept.ephemerals.map Ephemeral.job) ≥ 20 then none
  if (kept.ephemerals.filter fun row => decide (row.scopeKey = scopeKey)).length ≥ 40 then none
  if kept.ephemerals.any fun row => decide (row.scopeKey = scopeKey) && decide (row.pageHash = pageHash)
      && decide (row.job.measurementId = measurementId) && row.job.status.active then none
  return { kept with
    ephemerals := kept.ephemerals++[⟨⟨id,measurementId,.queued,true,none,none,none,none,none,at_⟩,scopeKey,pageHash,expiresAt⟩] }

def cancelEphemeral (database : Database) (scopeKey pageHash : String) (id : Nat) : Database :=
  let matched (row : Ephemeral) :=
    decide (row.id = id) && decide (row.scopeKey = scopeKey) && decide (row.pageHash = pageHash)
  { database with ephemerals := database.ephemerals.map fun row => row.map (cancelJob (matched row)) }

def claimEphemeral (database : Database) (owner : String) (token : Nat) (pruned at_ leased : Int) : Database :=
  let kept := prune database pruned
  let interrupted := { kept with ephemerals := kept.ephemerals.map (Ephemeral.map (Job.interrupted at_)) }
  if (interrupted.calculations.any fun row => decide (row.job.status = .running))
      || interrupted.ephemerals.any fun row => decide (row.job.status = .running) then interrupted
  else if interrupted.leased then interrupted
  else match oldestQueued (interrupted.ephemerals.map Ephemeral.job) with
    | none => interrupted
    | some job => { interrupted with
      ephemerals := amend Ephemeral.id interrupted.ephemerals job.id
        (Ephemeral.map fun row => row.claimed owner token (leased+leaseDuration)) }

def liveEphemeral (database : Database) (id : Nat) (owner : String) (token : Nat) (at_ : Int) : Bool :=
  database.ephemerals.any fun row => decide (row.id = id) && row.job.holds owner token
    && expiresAfter row.job.leaseExpiresAt at_ && decide (row.expiresAt > at_)

-- The UPDATE of the ephemeral heartbeat names the job and nothing else.
def heartbeatEphemeral (database : Database) (id : Nat) (at_ : Int) : Database :=
  { database with ephemerals := amend Ephemeral.id database.ephemerals id (Ephemeral.map fun job =>
    { job with leaseExpiresAt := some (at_+leaseDuration) }) }

def finishEphemeral (database : Database) (id : Nat) (token : Nat) (resultJson errorCode : Option String) : Database :=
  { database with ephemerals := amend Ephemeral.id database.ephemerals id (Ephemeral.map fun job =>
    if job.leaseToken = some token then job.finished resultJson errorCode else job) }

def revise (database : Database) (measurementId : String) : Database :=
  { database with calculations := database.calculations.map fun row => row.map fun job =>
    if job.measurementId = measurementId ∧ job.status.active then { job with status := .cancelled } else job }

def erase (database : Database) (measurementId : String) : Database :=
  { database with calculations := database.calculations.map fun row => row.map fun job =>
    if job.measurementId = measurementId then { job with status := .cancelled, resultJson := none, authority := false }
    else job }

-- A time a call read before its statement ran is at most the time now; the
-- times a transaction reads inside are not before it.
inductive Event where
  | tick (time : Int)
  | enqueueCalculation (measurementId : String) (revision : Int) (attached parent : Option Nat) (counted time : Int)
  | cancelCalculation (measurementId : String) (id : Nat)
  | claimCalculation (owner : String) (time : Int)
  | liveCheck (lane : Lane) (id : Nat) (owner : String) (token : Nat) (purpose : Purpose) (time : Int)
  | heartbeat (checked : Checked) (time : Int)
  | finishCalculation (id : Nat) (owner : String) (token : Nat) (resultJson errorCode : Option String) (time : Int)
  | finishEphemeral (checked : Checked) (resultJson errorCode : Option String)
  | prune (time : Int)
  | enqueueEphemeral (scopeKey pageHash measurementId : String) (expiresAt pruned time : Int)
  | cancelEphemeral (scopeKey pageHash : String) (id : Nat)
  | claimEphemeral (owner : String) (pruned time leased : Int)
  | revise (measurementId : String)
  | erase (measurementId : String)
  | measurements (rows : List Measurement)
  | lanes (leased : Bool)

def live (database : Database) : Lane → Nat → String → Nat → Int → Bool
  | .calculation => liveCalculation database
  | .ephemeral => liveEphemeral database

def heartbeat (database : Database) (checked : Checked) (time : Int) : Database :=
  match checked.lane with
  | .calculation => heartbeatCalculation database checked.id checked.owner checked.token time
  | .ephemeral => heartbeatEphemeral database checked.id time

def advance (world : World) : Event → Option World
  | .tick time => if world.now ≤ time then some { world with now := time } else none
  | .enqueueCalculation measurementId revision attached parent counted time =>
    if world.now ≤ counted ∧ counted ≤ time then
      match enqueueCalculation world.database world.minted measurementId revision attached parent counted time with
      | some database => some { world with database := database, now := time, minted := world.minted+1 }
      | none => some { world with now := time }
    else none
  | .cancelCalculation measurementId id => some { world with database := cancelCalculation world.database measurementId id }
  | .claimCalculation owner time =>
    if time ≤ world.now then
      some { world with database := claimCalculation world.database owner world.minted time, minted := world.minted+1 }
    else none
  | .liveCheck lane id owner token purpose time =>
    if time ≤ world.now ∧ live world.database lane id owner token time ∧ (purpose = .heartbeat ∨ lane = .ephemeral) then
      some { world with checked := world.checked++[⟨lane,id,owner,token,purpose⟩] }
    else none
  | .heartbeat checked time =>
    if time ≤ world.now ∧ checked ∈ world.checked ∧ checked.purpose = .heartbeat then
      some { world with database := heartbeat world.database checked time, checked := world.checked.erase checked }
    else none
  | .finishCalculation id owner token resultJson errorCode time =>
    if world.now ≤ time then
      some { world with database := finishCalculation world.database id owner token resultJson errorCode time, now := time }
    else none
  | .finishEphemeral checked resultJson errorCode =>
    if checked ∈ world.checked ∧ checked.purpose = .finish resultJson errorCode ∧ checked.lane = .ephemeral then
      some { world with
        database := finishEphemeral world.database checked.id checked.token resultJson errorCode
        checked := world.checked.erase checked }
    else none
  | .prune time => if time ≤ world.now then some { world with database := prune world.database time } else none
  | .enqueueEphemeral scopeKey pageHash measurementId expiresAt pruned time =>
    if world.now ≤ pruned ∧ pruned ≤ time then
      match enqueueEphemeral world.database world.minted scopeKey pageHash measurementId expiresAt pruned time with
      | some database => some { world with database := database, now := time, minted := world.minted+1 }
      | none => some { world with now := time }
    else none
  | .cancelEphemeral scopeKey pageHash id =>
    some { world with database := cancelEphemeral world.database scopeKey pageHash id }
  | .claimEphemeral owner pruned time leased =>
    if world.now ≤ pruned ∧ pruned ≤ time ∧ time ≤ leased then
      some { world with
        database := claimEphemeral world.database owner world.minted pruned time leased
        now := leased
        minted := world.minted+1 }
    else none
  | .revise measurementId => some { world with database := revise world.database measurementId }
  | .erase measurementId => some { world with database := erase world.database measurementId }
  | .measurements rows => some { world with database := { world.database with measurements := rows } }
  | .lanes leased => some { world with database := { world.database with leased := leased } }

def Step (before : World) (event : Event) (after : World) : Prop := advance before event = some after
end LedgeTopOps.MeasurementLanes
