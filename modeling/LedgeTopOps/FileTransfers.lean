import LedgeTopOps.KeyedRows
import LedgeTopOps.StepRuns

namespace LedgeTopOps.FileTransfers
open KeyedRows

-- Jobs that move files one after another in a durable workflow: cloud transfers and Dropbox imports share the tables
-- and the loop, and differ in what moves one file and in the options below.
inductive ItemStatus where
  | queued | running | retrying | completed | failed | cancelled | skipped
  deriving DecidableEq

-- `partly` is the source's 'partial'.
inductive JobStatus where
  | queued | running | cancelling | completed | partly | failed | cancelled | expired
  deriving DecidableEq

structure Item (σ : Type) where
  (id ordinal : Nat)
  source : σ
  status : ItemStatus
  attempts : Nat

structure Job where
  status : JobStatus
  fileCount : Nat := 0
  processed : Nat := 0
  succeeded : Nat := 0
  failed : Nat := 0
  cancelRequested : Bool := false

-- `ids` stands for the random UUIDs: the next one was never given before.
structure Tables (σ : Type) where
  job : Job
  items : List (Item σ)
  ids : Nat

def ItemStatus.waiting (status : ItemStatus) : Bool := status = .queued || status = .retrying
def ItemStatus.unfinished (status : ItemStatus) : Bool := status.waiting || status = .running
def ItemStatus.succeeded (status : ItemStatus) : Bool := status = .completed || status = .skipped
def ItemStatus.settled (status : ItemStatus) : Bool := status.succeeded || status = .failed
def ItemStatus.closed (status : ItemStatus) : Bool := status.settled || status = .cancelled
def JobStatus.counting (status : JobStatus) : Bool := status = .running || status = .cancelling
def JobStatus.open' (status : JobStatus) : Bool := status = .queued || status.counting

section
variable {σ : Type}

def Tables.amend (t : Tables σ) (id : Nat) (change : Item σ → Item σ) : Tables σ :=
  { t with items := KeyedRows.amend Item.id t.items id change }

def Tables.jobCancelled (t : Tables σ) : Bool :=
  t.job.status = .cancelling || t.job.status = .cancelled || t.job.cancelRequested

def Tables.row (t : Tables σ) (id : Nat) : Option (Item σ) := KeyedRows.find Item.id t.items id

-- The batch of persist-selection. Its DELETE and its INSERTs have no condition, the
-- UPDATE of the job has one.
def replaceItems (sources : List σ) (t : Tables σ) : Tables σ where
  job := if t.job.status = .queued then
    { t.job with status := .running, fileCount := sources.length, processed := 0, succeeded := 0, failed := 0 } else t.job
  items := sources.zipIdx.map fun (source,ordinal) => ⟨t.ids + ordinal,ordinal,source,.queued,0⟩
  ids := t.ids + sources.length

def markItemRunning (id : Nat) (t : Tables σ) : Tables σ :=
  t.amend id fun item => if item.status.waiting then { item with status := .running, attempts := item.attempts + 1 } else item

def countJob (count : Job → Job) (t : Tables σ) : Tables σ :=
  { t with job := if t.job.status.counting then count t.job else t.job }

def markItemResult (item : Item σ) (skipped : Bool) (t : Tables σ) : Tables σ :=
  countJob (fun job => { job with processed := job.processed + 1, succeeded := job.succeeded + 1 })
    (t.amend item.id fun row => { row with status := if skipped then .skipped else .completed })

def failureStatus (item : Item σ) (retryable : Bool) : ItemStatus :=
  if retryable && item.attempts < 4 then .retrying else .failed

def markItemFailure (item : Item σ) (retryable : Bool) (t : Tables σ) : Tables σ :=
  let marked := t.amend item.id fun row => { row with status := failureStatus item retryable }
  if failureStatus item retryable = .failed then
    countJob (fun job => { job with processed := job.processed + 1, failed := job.failed + 1 }) marked
  else marked

def renewItems (t : Tables σ) : Tables σ :=
  { t with items := t.items.map fun item => if item.status = .failed then { item with status := .retrying, attempts := 0 } else item }

def reopenJob (t : Tables σ) : Tables σ :=
  { t with job := { t.job with status := .running, processed := t.job.succeeded, failed := 0 } }

def finalStatus (job : Job) (cancelled : Bool) : JobStatus :=
  if cancelled then .cancelled
  else if 0 < job.failed then (if 0 < job.succeeded then .partly else .failed) else .completed

def finalizeItems (t : Tables σ) : List (Item σ) :=
  t.items.map fun item => if item.status.unfinished then { item with status := .cancelled } else item

-- `recounts`: the job's UPDATE also sets processed_files to the number of closed items.
def finalizeJob (recounts : Bool) (status : JobStatus) (t : Tables σ) : Tables σ :=
  let items := finalizeItems t
  { t with items := items, job := if t.job.status.open' then { t.job with status := status, processed := if recounts then items.countP (·.status.closed) else t.job.processed } else t.job }

def requestCancellation (t : Tables σ) : Tables σ :=
  { t with job := if t.job.status.open' then { t.job with status := .cancelling, cancelRequested := true } else t.job }

-- The loop's own UPDATE has no condition on the status.
def stopJob (t : Tables σ) : Tables σ :=
  { t with job := { t.job with status := .cancelling, cancelRequested := true } }

def failJob (t : Tables σ) : Tables σ :=
  { t with job := if t.job.status = .queued || t.job.status = .running then { t.job with status := .failed } else t.job }
end

-- What moves one file: its positions π between calls, the store ω it writes, the
-- errors ε and what an error means for the item and for the loop, the errors δ of
-- the database, the answers ρ of its calls and what others do to the store.
inductive Progress (π ε : Type) where
  | at (place : π)
  | finished (skipped : Bool)
  | raised (error : ε)

structure Mover (σ ω π ε δ ρ χ : Type) where
  enter : Item σ → π
  move : Bool → ω → Item σ → π → ρ → Option (ω × Progress π ε)
  fault : δ → ε
  (retryable again : ε → Bool)
  others : ω → χ → ω

structure Options where
  -- the credential is loaded by the workflow and not by the attempt
  credentialFirst : Bool
  -- the share is looked at before every item
  (asksShare recounts : Bool)
  -- the authorization is revoked at the end of finalize-job
  revokes : Bool
  -- there are retry requests
  retries : Bool
end LedgeTopOps.FileTransfers
