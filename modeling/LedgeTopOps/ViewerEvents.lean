import Mathlib.Algebra.GroupWithZero.Nat
import LedgeTopOps.KeyedRows
import LedgeTopOps.SqlBatches

namespace LedgeTopOps.ViewerEvents
open KeyedRows SqlBatches

-- The Viewer's outbox with the runs of deliverOneEvent, the requests in flight and the intake of Operations. Times
-- are milliseconds.
inductive Status where
  | pending | leased | delivered | failed
  deriving DecidableEq

def Status.final (status : Status) : Bool := status = .delivered || status = .failed

structure Row where
  id : Nat
  payload : String
  status : Status
  (attempts availableAt : Nat)
  lease : Option Nat
  deriving DecidableEq

def leaseMilliseconds : Nat := 60 * 1000
def maxAttempts : Nat := 12

def Row.due (now : Nat) (row : Row) : Bool :=
  row.availableAt ≤ now && (row.status = .pending || (row.status = .leased && row.lease.any (· ≤ now)))

def Row.claimed (now : Nat) (row : Row) : Row :=
  { row with status := .leased, attempts := row.attempts + 1, lease := some (now + leaseMilliseconds) }

def Row.delivered (row : Row) : Row := { row with status := .delivered, lease := none }

def Row.retried (now attempts : Nat) (row : Row) : Row :=
  { row with
    status := if maxAttempts ≤ attempts then .failed else .pending
    availableAt := now + min 3600000 (5000 * 2 ^ min attempts 10)
    lease := none }

-- One POST. The nonce is drawn for it; `run` is the run that sent it.
structure Request where
  event : Nat
  body : String
  (nonce run : Nat)
  deriving DecidableEq

-- A run of deliverOneEvent, by its next call and the row that it claimed.
inductive Pc where
  | claim
  | post (row : Row)
  | waiting (row : Row)
  | deliver (row : Row)
  | retry (row : Row)
  | ended
  deriving DecidableEq

def Pc.row : Pc → Option Row
  | .post row | .waiting row | .deliver row | .retry row => some row
  | .claim | .ended => none

structure Run where
  name : Nat
  pc : Pc

-- A recorded event. Its fingerprint is the hash of the body and stands for it.
structure Event where
  id : Nat
  fingerprint : String

-- `notices` and `audits` are the rows of the notification outbox and the received audit rows, by
-- their event; a nonce carries its expiry.
structure Operations where
  nonces : List (Nat × Nat)
  events : List Event
  (notices audits : List Nat)

def Operations.fingerprint (o : Operations) (id : Nat) : Option String := (find Event.id o.events id).map Event.fingerprint
def nonceMilliseconds : Nat := 600 * 1000

section
variable (now : Nat) (stored : Bool) (q : Request)

def insertNonce : Statement Operations :=
  guarded (fun o _ => !o.nonces.any (·.1 = q.nonce)) fun o => some { o with nonces := o.nonces++[(q.nonce,now + nonceMilliseconds)] }

-- `stored` is what the CHECKs of the row say.
def insertEvent : Statement Operations :=
  guarded (fun o changes => changes = 1 && stored && (o.fingerprint q.event).isNone) fun o => some { o with events := o.events++[⟨q.event,q.body⟩] }

def insertNotice : Statement Operations :=
  guarded (fun o changes => changes = 1 && !o.notices.contains q.event) fun o => some { o with notices := o.notices++[q.event] }

def insertAudit : Statement Operations :=
  guarded (fun _ changes => changes = 1) fun o => some { o with audits := o.audits++[q.event] }

def received : List (Statement Operations) := [insertNonce now q,insertEvent stored q,insertNotice q,insertAudit q]
end

inductive Stage where
  | existing | capacity | batch | raced
  | answered (ok : Bool)

structure Intake where
  request : Request
  stage : Stage

-- `fine` is what the capacity, or the CHECKs, allow.
def Operations.serve (o : Operations) (now : Nat) (fine : Bool) (i : Intake) : Operations × Stage := match i.stage with
  | .existing => (o,match o.fingerprint i.request.event with
      | some other => if other = i.request.body then .capacity else .answered false
      | none => .capacity)
  | .capacity => (o,if fine then .batch else .answered false)
  | .batch => match batch (received now fine i.request) o 0 with
    | none => (o,.answered false)
    | some (after,counts) => (after,if counts[1]? = some 1 then .answered true else .raced)
  | .raced => (o,.answered (o.fingerprint i.request.event = some i.request.body))
  | .answered ok => (o,.answered ok)

def Operations.prune (o : Operations) (now : Nat) : Operations := { o with nonces := o.nonces.filter fun nonce => now < nonce.2 }

-- `crashed` are the events whose claims were left without an outcome. No program reads it.
structure World where
  now : Nat
  rows : List Row
  runs : List Run
  requests : List Request
  operations : Operations
  intakes : List Intake
  crashed : List Nat

section
variable (w : World)

def World.row (id : Nat) : Option Row := find Row.id w.rows id
def World.run (name : Nat) : Option Run := find Run.name w.runs name
def World.goes (name : Nat) (pc : Pc) : World := { w with runs := amend Run.name w.runs name fun run => { run with pc := pc } }
def World.update (id : Nat) (change : Row → Row) : World := { w with rows := amend Row.id w.rows id change }

def World.enqueueEvent (id : Nat) (payload : String) : World :=
  if (w.row id).isSome then w else { w with rows := w.rows++[⟨id,payload,.pending,0,w.now,none⟩] }

def World.due : Option Row := w.rows.find? (·.due w.now)

def World.claimEvent (name : Nat) : World := match w.due with
  | none => w.goes name .ended
  | some row => (w.update row.id (·.claimed w.now)).goes name (.post (row.claimed w.now))

def World.send (request : Request) : World := { w with requests := w.requests++[request] }

-- The final update of a run, which addresses the row by its id alone.
def World.settle (name : Nat) : Pc → Option World
  | .deliver row => some ((w.update row.id Row.delivered).goes name .ended)
  | .retry row => some ((w.update row.id (·.retried w.now row.attempts)).goes name .ended)
  | _ => none
end

inductive Outcome where
  | returns | lost | fails

-- A run may be suspended before each step; `givesUp` is an error before or after its request, a time-out, or a reply
-- that cannot be closed. A call of the intake returns, takes effect and still errs, or fails.
inductive Action where
  | tick (milliseconds : Nat)
  | enqueue (id : Nat) (payload : String)
  | start (name : Nat)
  | claim (name : Nat)
  | post (name : Nat) (nonce : Nat)
  | arrives (request : Request)
  | serve (intake : Nat) (outcome : Outcome) (fine : Bool)
  | responds (intake : Nat)
  | givesUp (name : Nat)
  | settle (name : Nat)
  | crash (name : Nat)
  | prune

def World.served (w : World) (place : Nat) (i : Intake) (outcome : Outcome) (fine : Bool) : World :=
  let done := w.operations.serve w.now fine i
  match outcome with
  | .returns => { w with operations := done.1, intakes := w.intakes.set place { i with stage := done.2 } }
  | .lost => { w with operations := done.1, intakes := w.intakes.set place { i with stage := .answered false } }
  | .fails => { w with intakes := w.intakes.set place { i with stage := .answered false } }

def next (w : World) : Action → Option World
  | .tick milliseconds => some { w with now := w.now + milliseconds }
  | .enqueue id payload => some (w.enqueueEvent id payload)
  | .start name => if w.runs.any (·.name = name) then none else some { w with runs := w.runs++[⟨name,.claim⟩] }
  | .claim name => (w.run name).bind fun run => if run.pc = .claim then some (w.claimEvent name) else none
  | .post name nonce => (w.run name).bind fun run => match run.pc with
    | .post row => some ((w.send ⟨row.id,row.payload,nonce,name⟩).goes name (.waiting row))
    | _ => none
  | .arrives request => if request ∈ w.requests then some { w with intakes := w.intakes++[⟨request,.existing⟩] } else none
  | .serve place outcome fine => (w.intakes[place]?).bind fun i => match i.stage with
    | .answered _ => none
    | _ => some (w.served place i outcome fine)
  | .responds place => (w.intakes[place]?).bind fun i => match i.stage with
    | .answered ok => (w.run i.request.run).bind fun run => match run.pc with
      | .waiting row => some (w.goes run.name (if ok then .deliver row else .retry row))
      | _ => none
    | _ => none
  | .givesUp name => (w.run name).bind fun run => match run.pc with
    | .post row | .waiting row | .deliver row => some (w.goes name (.retry row))
    | _ => none
  | .settle name => (w.run name).bind fun run => w.settle name run.pc
  | .crash name => (w.run name).map fun run => { w.goes name .ended with crashed := (run.pc.row.map Row.id).toList++w.crashed }
  | .prune => some { w with operations := w.operations.prune w.now }

def initial : World := ⟨0,[],[],[],⟨[],[],[],[]⟩,[],[]⟩

structure Once (o : Operations) : Prop where
  events : Keyed Event.id o.events
  notice : ∀ e ∈ o.events, o.notices.count e.id = 1
  audit : ∀ e ∈ o.events, o.audits.count e.id = 1

structure Stays (w v : World) : Prop where
  fingerprint : ∀ id fingerprint, w.operations.fingerprint id = some fingerprint → v.operations.fingerprint id = some fingerprint
  final : ∀ row ∈ w.rows, row.status.final = true → ∃ later ∈ v.rows, later.id = row.id ∧ later.status = row.status

structure Delivered (w : World) : Prop where
  once : Once w.operations
  recorded : ∀ row ∈ w.rows, row.status = .delivered → w.operations.fingerprint row.id = some row.payload
  claims : ∀ row ∈ w.rows, row.attempts ≤ maxAttempts ∨ row.id ∈ w.crashed

-- The claim of a run stands: the row is leased, and was not claimed since.
def World.stands (w : World) (row : Row) : Bool := (w.row row.id).any fun held => held.status = .leased && held.attempts = row.attempts
def World.working (w : World) (row : Row) : Bool := w.runs.any fun run => run.pc.row.any fun held => held.id = row.id && held.attempts = row.attempts

-- The final update of a run finds its own claim, and the twelfth claim is not taken over while
-- its run still works on it.
def timely (w : World) : Action → Bool
  | .settle name => ((w.run name).bind fun run => run.pc.row).all fun row => w.stands row
  | .claim _ => w.due.all fun row => row.status = .pending || row.attempts < maxAttempts || !w.working row
  | _ => true
end LedgeTopOps.ViewerEvents
