import LedgeTopOps.ProjectRecovery

namespace LedgeTopOps.ProjectOverlay

-- The five requests call by call, in any number and any order of their calls, with the project
-- reassigned between them. Reads that start together end in any order.
inductive Field where
  | contacts | memory | rows | revisionCount | excludedRoots | attachmentCount | eventCount | mutationCount | latest
  deriving DecidableEq

def recoveryFields : List Field :=
  [.contacts,.memory,.rows,.revisionCount,.excludedRoots,.attachmentCount,.eventCount,.mutationCount,.latest]

def copyFields : List Field := [.contacts,.memory,.rows]

def Reads.take (reads : Reads) (db : Db) (root : Root) : Field → Reads
  | .contacts => { reads with contacts := (db.reads root).contacts }
  | .memory => { reads with memory := (db.reads root).memory }
  | .rows => { reads with contactCount := (db.reads root).contactCount }
  | .revisionCount => { reads with memoryRevisionCount := (db.reads root).memoryRevisionCount }
  | .excludedRoots => { reads with excludedRoots := (db.reads root).excludedRoots }
  | .attachmentCount => { reads with excludedAttachmentCount := (db.reads root).excludedAttachmentCount }
  | .eventCount => { reads with excludedAttachmentEventCount := (db.reads root).excludedAttachmentEventCount }
  | .mutationCount => { reads with excludedAttachmentMutationCount := (db.reads root).excludedAttachmentMutationCount }
  | .latest => { reads with latest := (db.reads root).latest }

def Destination.take (d : Destination) (db : Db) : Field → Destination
  | .contacts => { d with contacts := db.contactSet }
  | .memory => { d with memory := db.memory }
  | .rows => { d with rows := db.assignments }
  | _ => d

def Reads.nothing : Reads := ⟨none,none,0,0,[],0,0,0,none⟩
def Destination.nothing : Destination := ⟨none,none,[]⟩

inductive Outcome where
  | won | lost

-- `mark` is how many writes had been made when the plan was prepared; no code reads it.
inductive Pc where
  | contactsReceipt (r : ContactsSave)
  | contactsPrepare (r : ContactsSave)
  | contactsSet (r : ContactsSave) (project : Project)
  | contactsRows (r : ContactsSave) (project : Project)
  | contactsCommit (r : ContactsSave) (project : Project) (current : List Assignment)
  | memoryReceipt (r : MemorySave)
  | memoryPrepare (r : MemorySave)
  | memoryRead (r : MemorySave) (project : Project)
  | memoryCommit (r : MemorySave) (project : Project)
  | uploadPrepare (r : Upload)
  | uploadReceipt (r : Upload)
  | uploadPrepared (r : Upload)
  | uploadRead (r : Upload) (changeKind : ChangeKind)
  | uploadFinal (r : Upload) (changeKind : ChangeKind)
  | uploadFinalRead (r : Upload) (changeKind : ChangeKind) (project : Project)
  | uploadCommit (r : Upload) (changeKind : ChangeKind) (project : Project) (snapshot : Snapshot)
  | copyReceipt (r : Copy)
  | copyPrepare (r : Copy)
  | copyReads (r : Copy) (project : Project) (pending : List Field) (d : Destination)
  | copyCommit (r : Copy) (project : Project) (d : Destination)
  | recoverReceipt (r : Recover)
  | recoverPrepare (r : Recover)
  | recoverReads (r : Recover) (sync mark : Nat) (pending : List Field) (reads : Reads)
  | recoverCommit (r : Recover) (plan : Plan) (mark : Nat)
  | ended (outcome : Outcome)

-- prepareProject: the actor may act and the project belongs to the context's root.
def prepared (allowed : Bool) (root : Root) (db : Db) (next : Project → Pc) : Pc :=
  if allowed ∧ db.project.root = root then next db.project else .ended .lost

def refuse (condition : Bool) (next : Pc) : Pc := if condition then .ended .lost else next

def committed (db : Db) : Option Db → Db × Pc
  | some after => (after,.ended .won)
  | none => (db,.ended .lost)

def Pc.call (runtime : Runtime) (writes : Nat) (db : Db) : Pc → Db × Pc
  | .contactsReceipt r => (db,refuse (r.key ∈ db.mutations) (.contactsPrepare r))
  | .contactsPrepare r => (db,prepared r.allowed r.root db (.contactsSet r))
  | .contactsSet r project => (db,refuse (!(db.contactSet.all (·.root = r.root) && db.contactsVersion = r.expected)) (.contactsRows r project))
  | .contactsRows r project => (db,.contactsCommit r project db.assignments)
  | .contactsCommit r project current => committed db (r.batch project current db)
  | .memoryReceipt r => (db,refuse (r.key ∈ db.mutations) (.memoryPrepare r))
  | .memoryPrepare r => (db,prepared r.allowed r.root db fun project => refuse (!reasonFits project r.amendmentReason) (.memoryRead r project))
  | .memoryRead r project => (db,refuse (!(db.memory.all (·.root = r.root) && db.memoryVersion = r.expected)) (.memoryCommit r project))
  | .memoryCommit r project => committed db (r.batch project db)
  | .uploadPrepare r => (db,prepared r.allowed r.root db fun project => refuse (!reasonFits project r.amendmentReason) (.uploadReceipt r))
  | .uploadReceipt r => (db,refuse (r.key ∈ db.attachmentReceipts) (.uploadPrepared r))
  | .uploadPrepared r => (db,prepared r.allowed r.root db fun project =>
      refuse (!reasonFits project r.amendmentReason) (.uploadRead r (changeKindOf project)))
  | .uploadRead r changeKind => (db,refuse (!(db.memory.all (·.root = r.root) && db.memoryVersion = r.expected)) (.uploadFinal r changeKind))
  | .uploadFinal r changeKind => (db,prepared r.allowed r.root db (.uploadFinalRead r changeKind))
  | .uploadFinalRead r changeKind project => (db,refuse (!(db.memory.all (·.root = r.root) && db.memoryVersion = r.expected))
      (.uploadCommit r changeKind project ((db.memory.map (·.snapshot)).getD emptyMemory)))
  | .uploadCommit r changeKind project snapshot => committed db (r.batch project changeKind snapshot db)
  | .copyReceipt r => (db,refuse (r.key ∈ db.copies) (.copyPrepare r))
  | .copyPrepare r => (db,prepared r.allowed r.root db fun project =>
      refuse (!project.status.copyable) (.copyReads r project copyFields .nothing))
  | .copyReads r project pending d => (db,if pending = [] then refuse (!r.accepts d) (.copyCommit r project d) else .copyReads r project pending d)
  | .copyCommit r project d => committed db (r.batch runtime project d db)
  | .recoverReceipt r => (db,refuse (r.key ∈ db.recoveries.map (·.key)) (.recoverPrepare r))
  | .recoverPrepare r => (db,prepared r.allowed r.root db fun project => .recoverReads r project.sync writes recoveryFields .nothing)
  | .recoverReads r sync mark pending reads => (db,if pending = [] then match buildPlan r.root sync r.action r.reason reads with
      | .ok plan => refuse (plan.fingerprint ≠ r.preview) (.recoverCommit r plan mark)
      | .error _ => .ended .lost
    else .recoverReads r sync mark pending reads)
  | .recoverCommit r plan _ => committed db (plan.batch r.key db)
  | .ended outcome => (db,.ended outcome)

def Pc.read (db : Db) (field : Field) : Pc → Pc
  | .copyReads r project pending d => if field ∈ pending then .copyReads r project (pending.erase field) (d.take db field)
      else .copyReads r project pending d
  | .recoverReads r sync mark pending reads =>
    if field ∈ pending then .recoverReads r sync mark (pending.erase field) (reads.take db r.root field)
    else .recoverReads r sync mark pending reads
  | pc => pc

inductive Kind where
  | contacts | memory

def Db.version (db : Db) : Kind → Nat
  | .contacts => db.contactsVersion
  | .memory => db.memoryVersion

def Pc.expecting : Pc → List (Kind × Nat)
  | .contactsCommit r _ _ => [(.contacts,r.expected)]
  | .memoryCommit r _ => [(.memory,r.expected)]
  | .uploadCommit r _ _ _ => [(.memory,r.expected)]
  | .copyCommit r _ _ => [(.contacts,r.expectedContacts),(.memory,r.expectedMemory)]
  | .recoverCommit _ plan _ => [(.contacts,plan.contactsBefore),(.memory,plan.memoryBefore)]
  | _ => []

def Pc.writing (runtime : Runtime) : Pc → List (Kind × Nat)
  | .contactsCommit r _ _ => [(.contacts,r.expected)]
  | .memoryCommit r _ => [(.memory,r.expected)]
  | .uploadCommit r _ _ _ => [(.memory,r.expected)]
  | .copyCommit r _ d => (if r.contactsChanged runtime d.rows then [(Kind.contacts,r.expectedContacts)] else []) ++
      if r.memoryChanged d.snapshot then [(Kind.memory,r.expectedMemory)] else []
  | .recoverCommit _ plan _ => (if plan.reads.contacts.isSome then [(Kind.contacts,plan.contactsBefore)] else []) ++
      if plan.reads.memory.isSome then [(Kind.memory,plan.memoryBefore)] else []
  | _ => []

inductive Table where
  | saves | uploads | copies | recoveries
  deriving DecidableEq

def Pc.receipt : Pc → Option (Table × Key)
  | .contactsCommit r _ _ => some (.saves,r.key)
  | .memoryCommit r _ => some (.saves,r.key)
  | .uploadCommit r _ _ _ => some (.uploads,r.key)
  | .copyCommit r _ _ => some (.copies,r.key)
  | .recoverCommit r _ _ => some (.recoveries,r.key)
  | _ => none

def Db.keys (db : Db) : Table → List Key
  | .saves => db.mutations
  | .uploads => db.completed
  | .copies => db.copies
  | .recoveries => db.recoveries.map (·.key)

-- `writes` are the roots batches were committed under, newest first; `succeeded` the versions requests expected and
-- replaced, `spent` the keys they committed.
structure State where
  db : Db
  flows : List Pc
  writes : List Root
  succeeded : List (Kind × Nat)
  spent : List (Table × Key)

inductive Event where
  | saveContacts (r : ContactsSave)
  | saveMemory (r : MemorySave)
  | upload (r : Upload)
  | copy (r : Copy)
  | recover (r : Recover)
  | move (project : Project)
  | read (flow : Nat) (field : Field)
  | step (flow : Nat)
  | abandon (flow : Nat)

def Pc.won : Pc → Bool
  | .ended .won => true
  | _ => false

def State.join (s : State) (pc : Pc) : State := { s with flows := s.flows++[pc] }

def State.stepped (runtime : Runtime) (s : State) (flow : Nat) (pc : Pc) : State :=
  let moved := pc.call runtime s.writes.length s.db
  let won := pc.receipt.isSome && moved.2.won
  { db := moved.1
    flows := s.flows.set flow moved.2
    writes := if won then s.db.project.root :: s.writes else s.writes
    succeeded := (if won then pc.writing runtime else [])++s.succeeded
    spent := (if won then pc.receipt.toList else [])++s.spent }

def next (runtime : Runtime) (s : State) : Event → Option State
  | .saveContacts r => some (s.join (.contactsReceipt r))
  | .saveMemory r => some (s.join (.memoryReceipt r))
  | .upload r => some (s.join (.uploadPrepare r))
  | .copy r => some (s.join (.copyReceipt r))
  | .recover r => some (s.join (.recoverReceipt r))
  | .move project => some { s with db := { s.db with project := project } }
  | .read flow field => (s.flows[flow]?).map fun pc => { s with flows := s.flows.set flow (pc.read s.db field) }
  | .step flow => (s.flows[flow]?).map (s.stepped runtime flow)
  | .abandon flow => (s.flows[flow]?).map fun _ => { s with flows := s.flows.set flow (.ended .lost) }

def State.since (s : State) (mark : Nat) : List Root := s.writes.take (s.writes.length - mark)

-- A recovery that commits finds absent what its plan found absent, and since its plan was
-- prepared no batch was committed under another root.
def Current (s : State) (plan : Plan) (mark : Nat) : Prop :=
  (plan.reads.contacts = none → s.db.contactSet = none) ∧ (plan.reads.memory = none → s.db.memory = none) ∧ ∀ root ∈ s.since mark, root = plan.newRoot

def Meets (s : State) : Event → Prop
  | .step flow => ∀ r plan mark, s.flows[flow]? = some (.recoverCommit r plan mark) → (plan.batch r.key s.db).isSome = true → Current s plan mark
  | _ => True

def begun (project : Project) : State := ⟨Db.empty project,[],[],[],[]⟩
end LedgeTopOps.ProjectOverlay
