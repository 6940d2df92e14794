import LedgeTopOps.KeyedRows
import LedgeTopOps.StepRuns

namespace LedgeTopOps.RequestAttachments
open KeyedRows

-- The attachments of one request draft. Each has a cell, its row, object and one multipart upload; every call changes
-- one cell.
inductive Status where
  | uploading | quarantined | scanning | accepted | rejected | aborted | expired
  deriving DecidableEq

def Status.removed (status : Status) : Bool := [.rejected,.aborted,.expired].contains status
def Status.kept (status : Status) : Bool := [.quarantined,.scanning,.accepted].contains status

structure Receipt where
  clean : Bool
  sha256 : Nat
  deriving DecidableEq

-- `ready` is false while the multipart upload ID is the pending one; `file` stands for name and content type;
-- `claimed` is the token of completion_claimed_at.
structure Attachment where
  (clientUpload file size : Nat)
  ready : Bool
  status : Status
  (claimed actual : Option Nat)
  receipt : Option Receipt
  deriving DecidableEq

inductive Multipart where
  | absent | opened | completed | aborted
  deriving DecidableEq

structure Cell where
  row : Option Attachment
  object : Option Nat
  multipart : Multipart

def Cell.empty : Cell := ⟨none,none,.absent⟩
def Cell.matching (c : Cell) (condition : Attachment → Bool) : Bool := c.row.any condition
def Cell.amend (c : Cell) (change : Attachment → Attachment) : Cell := { c with row := c.row.map change }
def maxFiles : Int := 10
def maxFileBytes : Nat := 25 * 1024 * 1024
def maxTotalBytes : Int := 100 * 1024 * 1024
def Attachment.files (row : Attachment) : Int := if row.status.removed then 0 else 1
def Attachment.bytes (row : Attachment) : Int := if row.status.removed then 0 else row.size

def mayInsert (draft : List Attachment) (size : Nat) : Bool :=
  total Attachment.files draft < maxFiles && total Attachment.bytes draft + size ≤ maxTotalBytes

structure Input where
  (clientUpload file size : Nat)
  native : Bool
  deriving DecidableEq

-- A completion: the row it was given, its claim, and whether the caller is a native workspace.
structure Completion where
  read : Attachment
  name : Nat
  native : Bool
  deriving DecidableEq

inductive Pc where
  -- initializeRequestAttachment, initializeNativeRequestAttachment
  | initRead (input : Input)
  | insert (input : Input)
  | create (input : Input)
  | initialise (input : Input)
  | lost
  | undoAbort
  | undoDelete
  -- completeRequestAttachment
  | completeRead (name : Nat) (native : Bool)
  | parts (run : Completion)
  | claim (run : Completion)
  | compose (run : Completion)
  | composeHead (run : Completion)
  | unclaim (run : Completion)
  | release (run : Completion)
  | probe (run : Completion) (size : Nat)
  | settle (run : Completion) (size : Nat)
  | refuse (run : Completion) (size : Nat)
  | revoke (run : Completion)
  -- abortRequestAttachment
  | abortRead (native : Bool)
  | abortFirst (read : Attachment)
  | abortMark (read : Attachment) (native : Bool)
  | abortCheck (read : Attachment) (native : Bool)
  | abortBucket
  -- deleteRemovedAttachmentObject
  | remove
  -- acceptRequestAttachmentScanReceipt
  | scanRead (receipt : Receipt)
  | scanHead (receipt : Receipt)
  | scanMark (receipt : Receipt)
  | scanCheck (receipt : Receipt)
  -- cleanupExpiredRequestAttachments, for one of its rows
  | cleanRead
  | cleanAbort
  | cleanDelete
  | cleanMark
  | halted
  deriving DecidableEq

-- `flag` answers what is not in the cell: the authority guard of a statement, whether the parts are complete, the
-- file signature, what has expired.
inductive Reply where
  | ok
  | failed
  | composed (size : Nat)
  | flag (yes : Bool)

def done (c : Cell) (next : Pc) : Reply → Option (Cell × Pc)
  | .ok => some (c,next)
  | _ => none

def asked (next : Bool → Cell × Pc) : Reply → Option (Cell × Pc)
  | .flag yes => some (next yes)
  | _ => none

-- An abort takes effect on an open multipart upload and fails on a completed one.
def aborting (c : Cell) (next fails : Pc) : Reply → Option (Cell × Pc)
  | .ok => if c.multipart = .opened || c.multipart = .aborted then some ({ c with multipart := .aborted },next) else none
  | .failed => if c.multipart = .opened then none else some (c,fails)
  | _ => none

def newAttachment (input : Input) : Attachment :=
  { clientUpload := input.clientUpload, file := input.file, size := input.size, ready := false, status := .uploading,
    claimed := none, actual := none, receipt := none }

def Completion.mine (run : Completion) (row : Attachment) : Bool := row.status = .uploading && row.claimed = some run.name

def abortNext (read : Attachment) (native : Bool) : Pc :=
  if native && read.status = .uploading && read.ready then .abortBucket else .remove

def Pc.call (draft : List Attachment) (c : Cell) : Pc → Reply → Option (Cell × Pc)
  | .initRead input => done c (if draft.any (·.clientUpload = input.clientUpload) then .halted else .insert input)
  -- Two rows of one client upload ID are refused by the table.
  | .insert input => asked fun allowed =>
      if allowed && !draft.any (·.clientUpload = input.clientUpload) && mayInsert draft input.size then
        ({ c with row := some (newAttachment input) },.create input)
      else (c,.halted)
  | .create input => done { c with multipart := .opened } (.initialise input)
  | .initialise input => asked fun allowed =>
      if (allowed || !input.native) && c.matching (fun row => !row.ready && row.status = .uploading) then
        (c.amend fun row => { row with ready := true },.halted)
      else (c,.lost)
  | .lost => aborting c .undoAbort .undoAbort
  | .undoAbort => aborting c .undoDelete .undoDelete
  | .undoDelete => done (if c.matching (·.status = .uploading) then { c with row := none } else c) .halted
  | .completeRead name native => done c (match c.row with
      | some row => if row.status = .uploading && row.ready then .parts ⟨row,name,native⟩ else .halted
      | none => .halted)
  | .parts run => asked fun complete => (c,if complete then .claim run else .halted)
  | .claim run => asked fun allowed =>
      if (allowed || !run.native) && c.matching (fun row => row.status = .uploading && row.claimed.isNone) then
        (c.amend fun row => { row with claimed := some run.name },.compose run)
      else (c,.halted)
  | .compose run => fun reply => match reply with
      | .composed size => if c.multipart = .opened then some ({ c with multipart := .completed, object := some size },.probe run size) else none
      | .failed => if c.multipart = .opened then none else some (c,.composeHead run)
      | _ => none
  | .composeHead run => done c (match c.object with
      | some size => if size = run.read.size then .probe run size else .unclaim run
      | none => .unclaim run)
  | .unclaim run => asked fun allowed =>
      if (allowed || !run.native) && c.matching run.mine then (c.amend fun row => { row with claimed := none },.halted)
      else (c,if run.native then .release run else .halted)
  | .release run => asked fun same =>
      (if same && c.matching run.mine then c.amend fun row => { row with claimed := none } else c,.halted)
  | .probe run size => asked fun valid =>
      (c,if size = run.read.size && c.object.isSome && valid then .settle run size else .refuse run size)
  -- Only the native caller looks at what the UPDATE changed.
  | .settle run size => asked fun allowed =>
      if (allowed || !run.native) && c.matching run.mine then
        (c.amend fun row => { row with status := .quarantined, actual := some size, claimed := none },.halted)
      else (c,if run.native then .revoke run else .halted)
  | .refuse run size => asked fun allowed =>
      if (allowed || !run.native) && c.matching run.mine then
        (c.amend fun row => { row with status := .rejected, actual := some size, claimed := none },.remove)
      else (c,if run.native then .revoke run else .remove)
  | .revoke run => done { c with object := none } (.release run)
  | .abortRead native => done c (match c.row with
      | some row => if row.status = .aborted then .remove
          else if !native && row.status = .uploading && row.ready then .abortFirst row else .abortMark row native
      | none => .halted)
  | .abortFirst read => aborting c (.abortMark read false) .halted
  | .abortMark read native => asked fun allowed =>
      if (allowed || !native) && c.matching (·.status ≠ .aborted) then (c.amend fun row => { row with status := .aborted },abortNext read native)
      else (c,.abortCheck read native)
  | .abortCheck read native => done c (if c.matching (·.status = .aborted) then abortNext read native else .halted)
  | .abortBucket => aborting c .remove .halted
  | .remove => done { c with object := none } .halted
  | .scanRead receipt => done c (match c.row with
      | some row => if row.status = .quarantined || row.status = .scanning then .scanHead receipt
          else if row.status = .rejected && row.receipt = some receipt then .remove else .halted
      | none => .halted)
  | .scanHead receipt => done c (if c.object.isSome then .scanMark receipt else .halted)
  | .scanMark receipt => done
      (if c.matching (fun row => row.status = .quarantined || row.status = .scanning) then
        c.amend fun row => { row with status := if receipt.clean then .accepted else .rejected, receipt := some receipt } else c)
      (if c.matching (fun row => row.status = .quarantined || row.status = .scanning) then (if receipt.clean then .halted else .remove)
        else .scanCheck receipt)
  | .scanCheck receipt => done c (if c.matching (fun row => row.status = .rejected && row.receipt = some receipt) then .remove else .halted)
  | .cleanRead => asked fun due => (c,match c.row with
      | some row => if due && [Status.uploading,.quarantined,.scanning].contains row.status then
          (if row.status = .uploading && row.ready then .cleanAbort else .cleanDelete) else .halted
      | none => .halted)
  | .cleanAbort => aborting c .cleanDelete .halted
  | .cleanDelete => done { c with object := none } .cleanMark
  | .cleanMark => done
      (if c.matching (fun row => [Status.uploading,.quarantined,.scanning].contains row.status) then
        c.amend fun row => { row with status := .expired } else c) .halted
  | .halted => fun _ => none

-- `ids` are the attachments that have been inserted, `flows` the calls with the
-- attachment each is about.
structure World where
  ids : List Nat
  cells : Nat → Cell
  flows : List (Nat × Pc)

def World.draft (w : World) : List Attachment := w.ids.filterMap fun id => (w.cells id).row

def World.put (w : World) (id : Nat) (c : Cell) : World :=
  { w with
    ids := if (w.cells id).row.isNone && c.row.isSome then w.ids++[id] else w.ids
    cells := fun other => if other = id then c else w.cells other }

inductive Action where
  | init (input : Input)
  | complete (id : Nat) (native : Bool)
  | abort (id : Nat) (native : Bool)
  | scan (id : Nat) (receipt : Receipt)
  | cleanup (id : Nat)
  | reply (flow : Nat) (reply : Reply)

def World.begin (w : World) (id : Nat) (pc : Pc) : World := { w with flows := w.flows++[(id,pc)] }

-- Every operation but an init is about an attachment that has been inserted.
def World.about (w : World) (id : Nat) (pc : Pc) : Option World := if id ∈ w.ids then some (w.begin id pc) else none

def next (w : World) : Action → Option World
  | .init input => if 0 < input.size ∧ input.size ≤ maxFileBytes then some (w.begin w.flows.length (.initRead input)) else none
  | .complete id native => w.about id (.completeRead w.flows.length native)
  | .abort id native => w.about id (.abortRead native)
  | .scan id receipt => w.about id (.scanRead receipt)
  | .cleanup id => w.about id .cleanRead
  | .reply index reply => (w.flows[index]?).bind fun flow => (flow.2.call w.draft (w.cells flow.1) reply).map fun step =>
      { w.put flow.1 step.1 with flows := w.flows.set index (flow.1,step.2) }
end LedgeTopOps.RequestAttachments
