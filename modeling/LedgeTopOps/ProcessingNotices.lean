import Mathlib.Algebra.GroupWithZero.Nat
import LedgeTopOps.StepRuns
import LedgeTopOps.KeyedRows

namespace LedgeTopOps.ProcessingNotices

-- The notices about finished Viewer processing: outbox, mailer and the workers of
-- processViewerProcessingNotifications, call by call, in seconds.
inductive Status where
  | pending | processing | sent | failed | suppressed
  deriving DecidableEq

def Status.final : Status → Bool
  | .sent | .failed | .suppressed => true
  | _ => false

inductive Kind where
  | readyForReview | failed

structure Event where
  name : Nat
  kind : Kind
  project : String
  projectName : Option String
  task : String
  taskName : Option String
  (attempt requestedBy : String)
  (error reviewUrl : Option String)

-- A row of the outbox with its event. Id and event id are both unique and never change, so a row is addressed by its
-- event.
structure Row where
  event : Event
  status : Status
  (attempts nextAttempt : Nat)
  lease : Option Nat

def Row.name (row : Row) : Nat := row.event.name
def maxAttempts : Nat := 3
def leaseSeconds : Nat := 600
def turns : Nat := 20

-- The WHERE clause of the SELECT and of the claim.
def Row.due (now : Nat) (row : Row) : Bool :=
  row.attempts < maxAttempts &&
    ((row.status = .pending && row.nextAttempt ≤ now) || (row.status = .processing && row.lease.any (· ≤ now)))

def Row.claimed (now : Nat) (row : Row) : Row :=
  { row with status := .processing, attempts := row.attempts + 1, lease := some (now + leaseSeconds) }

def Row.suppressed (row : Row) : Row := { row with status := .suppressed, lease := none }
def Row.sent (row : Row) : Row := { row with status := .sent, lease := none }

-- The failure update, with the attempt number of the row as it was first read.
def Row.refused (now attempt : Nat) (row : Row) : Row :=
  { row with
    status := if maxAttempts ≤ attempt then .failed else .pending
    nextAttempt := if maxAttempts ≤ attempt then now else now + 2 ^ attempt * 5 * 60
    lease := none }

def Event.staff (event : Event) : String := if event.requestedBy.startsWith "ops:" then (event.requestedBy.drop 4).toString else ""

def present (text : Option String) : Option String := text.filter (· ≠ "")
def labelled (name : Option String) (key : String) : String := match present name with
  | some name => name++" ("++key++")"
  | none => key

def Event.subject (event : Event) : String := match event.kind with
  | .failed => "3D processing failed"
  | .readyForReview => "3D model ready for review"

def Event.text (event : Event) : String :=
  "Project "++labelled event.projectName event.project++"\nTask "++labelled event.taskName event.task++", attempt "++event.attempt ++
    match event.kind with
    | .failed => ": "++(present event.error).getD "Processing failed"
    | .readyForReview => " is ready for review."++((present event.reviewUrl).map ("\n\nReview: "++·)).getD ""

structure Mail where
  (event worker : Nat)
  (recipient subject text : String)
  accepted : Bool

structure World where
  now : Nat
  rows : List Row
  mails : List Mail

def World.row (w : World) (name : Nat) : Option Row := KeyedRows.find Row.name w.rows name
def World.update (w : World) (name : Nat) (change : Row → Row) : World := { w with rows := KeyedRows.amend Row.name w.rows name change }

-- The claim, which repeats the condition of the SELECT.
def World.claimable (w : World) (name : Nat) : Bool := (w.row name).any (·.due w.now)
def World.claim (w : World) (name : Nat) : World := w.update name fun row => if row.due w.now then row.claimed w.now else row

-- INSERT OR IGNORE, together with the event.
def World.enqueue (w : World) (event : Event) : World :=
  if (w.row event.name).isSome then w else { w with rows := w.rows++[⟨event,.pending,0,w.now,none⟩] }

-- Where a run is; `read` is the row it selected, `processed` its loop counter.
inductive Pc where
  | select (processed : Nat)
  | claim (processed : Nat) (read : Row)
  | recipient (processed : Nat) (read : Row)
  | suppress (processed : Nat) (read : Row)
  | send (processed : Nat) (read : Row) (address : String)
  | sent (processed : Nat) (read : Row)
  | refused (processed : Nat) (read : Row)
  | alert (processed : Nat)
  | halted

-- `uncertain`: the mailer took the mail and the call raised all the same.
inductive Sending where
  | accepted | refused | uncertain
  deriving DecidableEq

def Sending.taken : Sending → Bool
  | .refused => false
  | _ => true

inductive Reply where
  | ok
  | address (found : Option String)
  | mail (result : Sending)
  | raised

def advance (processed : Nat) : Pc := if processed + 1 < turns then .select (processed + 1) else .halted

def World.submit (w : World) (worker : Nat) (event : Event) (address : String) (accepted : Bool) : World :=
  { w with mails := ⟨event.name,worker,address,event.subject,event.text,accepted⟩ :: w.mails }

def Pc.call (w : World) (worker : Nat) : Pc → Reply → Option (World × Pc)
  | .select processed, .ok => some (w,match w.rows.find? (·.due w.now) with
      | some row => .claim processed row
      | none => .halted)
  -- A lost claim is not counted.
  | .claim processed read, .ok => some (w.claim read.name,
      if w.claimable read.name then .recipient processed read else .select processed)
  | .recipient processed read, .address found => some (w,match found with
      | some address => .send processed read address
      | none => .suppress processed read)
  | .suppress processed read, .ok => some (w.update read.name Row.suppressed,advance processed)
  | .send processed read address, .mail result => some (w.submit worker read.event address result.taken,
      if result = .accepted then .sent processed read else .refused processed read)
  | .sent processed read, .ok => some (w.update read.name Row.sent,advance processed)
  | .refused processed read, .ok => some (w.update read.name (·.refused w.now (read.attempts + 1)),
      if maxAttempts ≤ read.attempts + 1 then .alert processed else advance processed)
  | .alert processed, .ok => some (w,advance processed)
  | .alert _, .raised => some (w,.halted)
  | _, _ => none

structure State where
  world : World
  flows : List Pc

inductive Action where
  | enqueue (event : Event)
  | start
  | crash (worker : Nat)
  | tick (seconds : Nat)
  | reply (worker : Nat) (reply : Reply)

def next (s : State) : Action → Option State
  | .enqueue event => some { s with world := s.world.enqueue event }
  | .start => some { s with flows := s.flows++[.select 0] }
  | .crash worker => some { s with flows := s.flows.set worker .halted }
  | .tick seconds => some { s with world := { s.world with now := s.world.now + seconds } }
  | .reply worker reply => (s.flows[worker]?).bind fun pc => (pc.call s.world worker reply).map fun step =>
      { world := step.1, flows := s.flows.set worker step.2 }

def Pc.turn : Pc → Option Nat
  | .recipient _ read | .suppress _ read | .send _ read _ | .sent _ read | .refused _ read => some read.name
  | _ => none

def Pc.owes : Pc → Option Nat
  | .recipient _ read | .send _ read _ => some read.name
  | _ => none

def Pc.alone (s : State) : Pc → Bool
  | .claim _ read => !s.world.claimable read.name ||
      (s.flows.all (·.turn ≠ some read.name) && s.world.mails.all fun mail => !(mail.event = read.name && mail.accepted))
  | _ => true

def alone (s : State) : Action → Bool
  | .reply worker _ => match s.flows[worker]? with
    | some pc => pc.alone s
    | none => true
  | _ => true
end LedgeTopOps.ProcessingNotices
