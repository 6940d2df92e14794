import Mathlib.Algebra.GroupWithZero.Nat
import LedgeTopOps.KeyedRows
import LedgeTopOps.SqlBatches

namespace LedgeTopOps.PortalNotices
open SqlBatches KeyedRows

-- The portal delivery notifications of one database: the outbox rows of the direct lane, the batches that collect
-- them, and the statements that stage, claim, publish and finish.
abbrev Id := Nat

structure Lane where
  (source workspace binding bindingVersion principal principalVersion : String)
  deriving DecidableEq

structure Owner where
  (scopeType publicId r2Prefix : String)
  deriving DecidableEq

-- What the receipt, the grant, the workspace and the binding of an outbox row say of it.
structure Facts where
  lane : Lane
  owner : Owner
  grantVersion : Nat

inductive OutboxStatus where
  | pending | processing | sent | failed | suppressed
  deriving DecidableEq

structure Outbox where
  id : Id
  granted : Bool
  status : OutboxStatus
  attempts : Nat
  lease : Option Nat

def Outbox.untouched (row : Outbox) : Bool := row.status = .pending && row.attempts = 0 && row.lease = none

inductive Status where
  | pending | processing | sent | cancelled | suppressed | failed
  deriving DecidableEq

def Status.final : Status → Bool
  | .pending | .processing => false
  | .sent | .cancelled | .suppressed | .failed => true

structure Mail where
  (to_ workspace : String)
  historical : Bool
  batch : Id
  deriving DecidableEq

structure Fingerprint where
  authority : String
  mail : Mail
  deriving DecidableEq

structure Batch where
  id : Id
  lane : Lane
  owner : Owner
  revision : Nat
  status : Status
  (eligibleAt attempts : Nat)
  (sealedAt lease leaseExpiresAt : Option Nat)
  dispatch : Option Fingerprint
  recipient : Option String

def Batch.isOpen (b : Batch) : Bool := b.status = .pending && b.sealedAt = none

structure Item where
  (outbox batch : Id)
  grantVersion : Nat
  token : Id

structure Db where
  outbox : List Outbox
  batches : List Batch
  items : List Item

def Db.itemsOf (db : Db) (b : Id) : List Item := db.items.filter (·.batch = b)
def Db.staged (db : Db) (o : Id) : Bool := db.items.any (·.outbox = o)
def Db.row (db : Db) (o : Id) : Option Outbox := find Outbox.id db.outbox o

def Db.update (db : Db) (condition : Batch → Bool) (change : Batch → Batch) : Db :=
  { db with batches := db.batches.map fun b => if condition b then change b else b }

-- UPDATE portal_delivery_notification_batches SET change WHERE condition
def updateBatches (condition : Db → Batch → Bool) (change : Batch → Batch) : Statement Db := fun db _ =>
  some (db.update (condition db) change,db.batches.countP (condition db))

def minutes (n : Nat) : Nat := 60 * n

section
variable (facts : Id → Option Facts) (now : Nat) (o token id : Id)

-- stageTarget: a granted row that no lane has touched and that is no item yet.
def target (db : Db) : Option Facts :=
  if (db.row o).any (fun row => row.granted && row.untouched) && !db.staged o then facts o else none

def sealFull : Statement Db :=
  updateBatches (fun db b => (target facts o db).any fun f => b.isOpen && b.lane = f.lane && 50 ≤ (db.itemsOf b.id).length)
    fun b => { b with sealedAt := some now, revision := b.revision + 1 }

-- INSERT ... ON CONFLICT on the index of open batches DO NOTHING; an id taken already aborts.
def openBatch : Statement Db := fun db _ => match target facts o db with
  | none => some (db,0)
  | some f =>
    if db.batches.any fun b => b.isOpen && b.lane = f.lane then some (db,0)
    else if db.batches.any fun b => b.id = id then none
    else some ({ db with
      batches := db.batches++[⟨id,f.lane,f.owner,1,.pending,now + minutes 5,0,none,none,none,none,none⟩] },1)

def insertItem (f : Facts) (db : Db) (b : Batch) : Option Db :=
  if !db.staged o && b.isOpen && b.lane = f.lane && b.owner = f.owner && (db.row o).any (fun row => row.granted && row.untouched) &&
      (db.itemsOf b.id).length < 50 then some { db with items := db.items++[⟨o,b.id,f.grantVersion,token⟩] }
  else none

def addItem : Statement Db := fun db _ => match target facts o db with
  | none => some (db,0)
  | some f =>
    let joined := db.batches.filter fun b => b.isOpen && b.lane = f.lane
    (joined.foldlM (insertItem o token f) db).map fun after => (after,joined.length)

def postpone : Statement Db :=
  updateBatches (fun db b => b.isOpen && db.items.any fun item => item.token = token && item.batch = b.id)
    fun b => { b with eligibleAt := now + minutes 5, revision := b.revision + 1 }

def suppressRow : Statement Db := fun db _ =>
  let takes := fun row : Outbox => row.id = o && row.untouched && db.staged row.id
  some ({ db with outbox := db.outbox.map fun row => if takes row then { row with status := .suppressed } else row },db.outbox.countP takes)

def stage : List (Statement Db) :=
  [sealFull facts now o,openBatch facts now o id,addItem facts o token,postpone now token,suppressRow o]

-- INSERT INTO project_alpha_delivery_portal_notification_outbox
def insertOutbox (granted : Bool) : Statement Db := fun db _ =>
  if db.outbox.any fun row => row.id = o then none else some ({ db with outbox := db.outbox++[⟨o,granted,.pending,0,none⟩] },1)
end

def adoption (facts : Id → Option Facts) (now drawn : Nat) : List Id → List (Statement Db)
  | [] => []
  | o :: rest => stage facts now o drawn (drawn + 1)++adoption facts now (drawn + 2) rest

-- The outbox rows an adoption may read: granted, untouched, no item yet.
def Db.adoptable (db : Db) (o : Id) : Bool := (db.row o).any (fun row => row.granted && row.untouched) && !db.staged o

inductive Direct where
  | claim | suppress | exhaust | extend | finish (status : OutboxStatus)

def Outbox.available (now : Nat) (row : Outbox) : Bool :=
  row.status = .pending || (row.status = .processing && row.lease.any (· ≤ now))

def Outbox.direct (now : Nat) (row : Outbox) : Direct → Option Outbox
  | .claim => if row.available now ∧ row.attempts < 3 then
      some { row with status := .processing, attempts := row.attempts + 1, lease := some (now + minutes 15) } else none
  | .suppress => if row.available now ∧ row.attempts < 3 then some { row with status := .suppressed, lease := none } else none
  | .exhaust => if row.available now ∧ 3 ≤ row.attempts then some { row with status := .failed, lease := none } else none
  | .extend => if row.status = .processing then some { row with lease := some (now + minutes 15) } else none
  | .finish status => if row.status = .processing then some { row with status := status, lease := none } else none

def Batch.due (now : Nat) (b : Batch) : Bool :=
  (b.status = .pending && b.eligibleAt ≤ now) || (b.status = .processing && b.leaseExpiresAt.any (· ≤ now))

def exhaust (now : Nat) (ids : List Id) : Statement Db :=
  updateBatches (fun _ b => b.id ∈ ids && 3 ≤ b.attempts && b.due now)
    fun b => { b with status := .failed, revision := b.revision + 1, lease := none, leaseExpiresAt := none }

def claim (now : Nat) (row : Batch) (token : Id) : Statement Db :=
  updateBatches (fun _ b => b.id = row.id && b.revision = row.revision && b.attempts < 3 && b.due now)
    fun b => { b with
      status := .processing
      revision := b.revision + 1
      attempts := b.attempts + 1
      sealedAt := some (b.sealedAt.getD now)
      lease := some token
      leaseExpiresAt := some (now + minutes 15) }

-- `guarded` is the authority clause; a fingerprint once stored is the only one.
def publish (now : Nat) (row : Batch) (fingerprint : Fingerprint) (guarded : Bool) : Statement Db :=
  updateBatches (fun _ b => b.id = row.id && b.status = .processing && b.lease = row.lease && b.leaseExpiresAt.any (now < ·) &&
      (b.dispatch = none || b.dispatch = some fingerprint) && guarded)
    fun b => { b with dispatch := some (b.dispatch.getD fingerprint), recipient := some (b.recipient.getD fingerprint.mail.to_) }

def finish (now : Nat) (row : Batch) (status : Status) : Statement Db :=
  updateBatches (fun _ b => b.id = row.id && b.status = .processing && b.lease = row.lease)
    fun b => { b with
      status := status
      revision := b.revision + 1
      eligibleAt := if status = .pending then now + minutes (2 ^ row.attempts * 5) else b.eligibleAt
      lease := none
      leaseExpiresAt := none }

def selectMail (expected : Option Fingerprint) (authority : String) (mail : Mail) : Option Fingerprint :=
  let current : Fingerprint := ⟨authority,mail⟩
  let legacy : Fingerprint := ⟨authority,{ mail with historical := true }⟩
  if expected = none ∨ expected = some current then some current
  else if expected = some legacy then some legacy
  else none

-- What the world answers one call: the joined rows, those a reading chooses, the authority of a batch (recipient and
-- digest), whether its guard still holds, and whether it raises.
structure Answers where
  facts : Id → Option Facts
  chosen : List Id
  authority : Option (String × String)
  (guarded raises : Bool)

inductive Pc where
  | adoptRead
  | adopt (ids : List Id)
  | exhaustedRead
  | exhaust (ids : List Id)
  | candidatesRead
  | claim (row : Batch) (rest : List Batch)
  | authorize (row : Batch) (rest : List Batch)
  | publish (row : Batch) (fingerprint : Fingerprint) (rest : List Batch)
  | submit (row : Batch) (fingerprint : Fingerprint) (rest : List Batch)
  | finish (row : Batch) (status : Status) (handling : Bool) (rest : List Batch)
  | ended

def proceed : List Batch → Pc
  | [] => .ended
  | row :: rest => .claim row rest

def failed (row : Batch) (rest : List Batch) : Pc := .finish row (if 3 ≤ row.attempts then .failed else .pending) true rest

def Pc.raised : Pc → Pc
  | .authorize row rest => failed row rest
  | .publish row _ rest => failed row rest
  | .submit row _ rest => failed row rest
  | .finish row _ false rest => failed row rest
  | _ => .ended

def Db.wanted (db : Db) (now : Nat) (ids : List Id) : List Batch := db.batches.filter fun b => b.id ∈ ids && b.attempts < 3 && b.due now

-- One call of a processor that does not raise; `drawn` names the tokens it draws.
def Pc.call (now drawn : Nat) (answers : Answers) (db : Db) : Pc → Db × Pc
  | .adoptRead => (db,match answers.chosen.filter db.adoptable with
    | [] => .exhaustedRead
    | ids => .adopt ids)
  | .adopt ids => match batch (adoption answers.facts now drawn ids) db 0 with
    | some (after,_) => (after,.exhaustedRead)
    | none => (db,.ended)
  | .exhaustedRead => (db,.exhaust (answers.chosen.filter fun id => db.batches.any fun b => b.id = id && 3 ≤ b.attempts && b.due now))
  | .exhaust ids => match LedgeTopOps.PortalNotices.exhaust now ids db 0 with
    | some (after,_) => (after,.candidatesRead)
    | none => (db,.ended)
  | .candidatesRead => (db,proceed (db.wanted now answers.chosen))
  | .claim row rest => match LedgeTopOps.PortalNotices.claim now row drawn db 0 with
    | some (after,changes) => (after,if changes = 0 then proceed rest
        else .authorize { row with lease := some drawn, attempts := row.attempts + 1 } rest)
    | none => (db,.ended)
  | .authorize row rest => (db,match answers.authority with
    | none => .finish row .suppressed false rest
    | some (recipient,authority) => match selectMail row.dispatch authority ⟨recipient,row.lane.workspace,false,row.id⟩ with
      | none => .finish row .suppressed false rest
      | some fingerprint => .publish row fingerprint rest)
  | .publish row fingerprint rest => match LedgeTopOps.PortalNotices.publish now row fingerprint answers.guarded db 0 with
    | some (after,changes) => (after,if changes = 0 then .finish row .suppressed false rest else .submit row fingerprint rest)
    | none => (db,.ended)
  | .submit row _ rest => (db,.finish row .sent false rest)
  | .finish row status _ rest => match LedgeTopOps.PortalNotices.finish now row status db 0 with
    | some (after,_) => (after,proceed rest)
    | none => (db,.ended)
  | .ended => (db,.ended)

-- `mails` are the mails handed to the provider, with the batch and the fingerprint they are for.
structure State where
  db : Db
  (now drawn : Nat)
  flows : List Pc
  mails : List (Id × Fingerprint)

inductive Event where
  | intent (o : Id) (granted staged : Bool) (facts : Id → Option Facts)
  | direct (o : Id) (change : Direct)
  | tick (by_ : Nat)
  | start
  | step (flow : Nat) (answers : Answers)
  | crash (flow : Nat)

def Pc.mail : Pc → List (Id × Fingerprint)
  | .submit row fingerprint _ => [(row.id,fingerprint)]
  | _ => []

def Pc.draws : Pc → Nat
  | .adopt ids => 2 * ids.length
  | _ => 1

-- A mail whose acknowledgement is lost was submitted all the same.
def State.stepped (s : State) (flow : Nat) (answers : Answers) (pc : Pc) : State :=
  let moved := if answers.raises then (s.db,pc.raised) else pc.call s.now s.drawn answers s.db
  { s with db := moved.1, drawn := s.drawn + pc.draws, flows := s.flows.set flow moved.2, mails := pc.mail++s.mails }

def intentBatch (o : Id) (granted staged : Bool) (facts : Id → Option Facts) (now drawn : Nat) : List (Statement Db) :=
  insertOutbox o granted :: if staged then stage facts now o drawn (drawn + 1) else []

def next (s : State) : Event → Option State
  | .intent o granted staged facts => some { s with
      db := commit (intentBatch o granted staged facts s.now s.drawn) s.db
      drawn := s.drawn + 2 }
  | .direct o change => ((s.db.row o).bind fun row => row.direct s.now change).map fun row =>
      { s with db := { s.db with outbox := amend Outbox.id s.db.outbox o fun _ => row } }
  | .tick by_ => some { s with now := s.now + by_ }
  | .start => some { s with flows := s.flows++[.adoptRead] }
  | .step flow answers => (s.flows[flow]?).map (s.stepped flow answers)
  | .crash flow => (s.flows[flow]?).map fun _ => { s with flows := s.flows.set flow .ended }

def initial : State := ⟨⟨[],[],[]⟩,0,0,[],[]⟩
end LedgeTopOps.PortalNotices
