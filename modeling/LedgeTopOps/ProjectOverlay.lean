import Mathlib.Algebra.GroupWithZero.Nat
import Mathlib.Data.List.Dedup
import Mathlib.Data.String.Basic

namespace LedgeTopOps.ProjectOverlay

-- The operational overlay of one project: contact set, memory, revisions, attachments and receipts, and the batches
-- that write them, each one transaction that commits under what its write fence and the triggers count.
inductive RootKind where
  | organization | client
  deriving DecidableEq

structure Root where
  kind : RootKind
  id : String
  deriving DecidableEq

-- PRIMARY KEY(actor_id,idempotency_key)
structure Key where
  (actor key : String)
  deriving DecidableEq

inductive Status where
  | notStarted | active | overdue | completed | cancelled | other
  deriving DecidableEq

def Status.terminal (status : Status) : Bool := status = .completed || status = .cancelled
def Status.copyable (status : Status) : Bool := status = .notStarted || status = .active || status = .overdue

-- The project as its own row and its owner's row give it: the root follows the owner, the
-- synchronisation is the one that last wrote the project's own row.
structure Project where
  root : Root
  sync : Nat
  status : Status
  deriving DecidableEq

inductive Role where
  | projectContact | siteContact
  deriving DecidableEq

inductive Method where
  | email | phone | text
  deriving DecidableEq

-- A drawn name, or the one a copied row derives from its contact and role.
inductive RowId where
  | uuid (request : Key) (place : Nat)
  | copied (contactId : String) (role : Role)

-- `under` is the root a row was written under; the table has no such column.
structure Assignment where
  id : RowId
  contactId : String
  role : Role
  preferredContactMethod : Option Method
  instructions : String
  sortOrder : Nat
  under : Root

structure ContactSet where
  root : Root
  version : Nat
  deriving DecidableEq

structure ContactRevision where
  version : Nat
  snapshot : List Assignment

inductive Section where
  | plan | actualOutcome | deviationsAndReasons | observations | problems | successes | recommendations | nextTimeRequests
  deriving DecidableEq

def PROJECT_MEMORY_SECTIONS : List Section :=
  [.plan,.actualOutcome,.deviationsAndReasons,.observations,.problems,.successes,.recommendations,.nextTimeRequests]

abbrev Snapshot := Section → String

def emptyMemory : Snapshot := fun _ => ""

structure Memory where
  root : Root
  version : Nat
  snapshot : Snapshot

inductive ChangeKind where
  | saved | postCompletionAmendment

structure MemoryRevision where
  version : Nat
  changeKind : ChangeKind
  snapshot : Snapshot
  amendmentReason : Option String
  under : Root

-- The attachment of the upload intent of one key; its event is one to one with it.
structure Attachment where
  intent : Key
  root : Root
  (size versionAdded : Nat)

inductive Action where
  | reset | transfer
  deriving DecidableEq

structure Recovery where
  key : Key
  sequence : Nat
  action : Action
  (oldRoot newRoot : Root)
  (contactsVisibleFrom memoryVisibleFrom : Nat)

-- The rows of one project. `completed` are the upload intents with that status.
structure Db where
  project : Project
  contactSet : Option ContactSet
  assignments : List Assignment
  contactRevisions : List ContactRevision
  memory : Option Memory
  (revisions archive : List MemoryRevision)
  (attachments attachmentArchive : List Attachment)
  (attachmentReceipts completed mutations copies : List Key)
  recoveries : List Recovery

def Db.empty (project : Project) : Db := ⟨project,none,[],[],none,[],[],[],[],[],[],[],[],[]⟩

-- NOT EXISTS for version 0, EXISTS ... version=? for every other.
def versionIs (held : Option Nat) (expected : Nat) : Bool := if expected = 0 then held.isNone else held = some expected
def Db.contactsVersion (db : Db) : Nat := (db.contactSet.map (·.version)).getD 0
def Db.memoryVersion (db : Db) : Nat := (db.memory.map (·.version)).getD 0

-- UNIQUE(projection_source_id,project_id,contact_id,role)
def distinctContacts (rows : List Assignment) : Bool := (rows.map fun row => (row.contactId,row.role)).Nodup

-- The writes of a contact set under its fence: the project is as it was read, the set at the version expected and
-- under its root, and the assignments deleted are as many as read.
def Db.writeContacts (db : Db) (project : Project) (expected deletes : Nat) (rows : List Assignment) : Option Db :=
  if db.project = project ∧ versionIs (db.contactSet.map (·.version)) expected ∧ db.contactSet.all (·.root = project.root) ∧
      db.assignments.length = deletes ∧ deletes ≤ 100 ∧ rows.length ≤ 100 ∧ distinctContacts rows ∧
      expected + 1 ∉ db.contactRevisions.map (·.version) then
    some { db with
      contactSet := some ⟨project.root,expected + 1⟩
      assignments := rows
      contactRevisions := db.contactRevisions++[⟨expected + 1,rows⟩] }
  else none

-- The writes of a memory under its fence. An upload leaves the snapshot of a stored row alone.
def Db.writeMemory (db : Db) (project : Project) (expected : Nat) (row : Snapshot → Snapshot) (snapshot : Snapshot)
    (changeKind : ChangeKind) (amendmentReason : Option String) : Option Db :=
  if db.project = project ∧ versionIs (db.memory.map (·.version)) expected ∧ db.memory.all (·.root = project.root) ∧
      expected + 1 ∉ db.revisions.map (·.version) then
    some { db with
      memory := some ⟨project.root,expected + 1,match db.memory with | some m => row m.snapshot | none => snapshot⟩
      revisions := db.revisions++[⟨expected + 1,changeKind,snapshot,amendmentReason,project.root⟩] }
  else none

structure ContactInput where
  contactId : String
  role : Role
  preferredContactMethod : Option Method
  instructions : String

-- `allowed` stands for every check a request makes of its actor and of its contacts.
structure ContactsSave where
  root : Root
  expected : Nat
  key : Key
  inputs : List ContactInput
  allowed : Bool

def ContactsSave.rows (r : ContactsSave) (current : List Assignment) : List Assignment :=
  r.inputs.mapIdx fun place item =>
    ⟨((current.find? fun row => row.contactId = item.contactId && row.role = item.role).map (·.id)).getD (.uuid r.key place),
      item.contactId,item.role,item.preferredContactMethod,item.instructions,place,r.root⟩

def ContactsSave.batch (r : ContactsSave) (project : Project) (current : List Assignment) (db : Db) : Option Db :=
  (db.writeContacts project r.expected current.length (r.rows current)).bind fun after =>
    if r.key ∈ after.mutations then none else some { after with mutations := r.key :: after.mutations }

structure MemorySave where
  root : Root
  expected : Nat
  key : Key
  memory : Snapshot
  amendmentReason : Option String
  allowed : Bool

def changeKindOf (project : Project) : ChangeKind := if project.status.terminal then .postCompletionAmendment else .saved

-- A reason exactly where the project is completed or cancelled.
def reasonFits (project : Project) (reason : Option String) : Bool := project.status.terminal = reason.isSome

def MemorySave.batch (r : MemorySave) (project : Project) (db : Db) : Option Db :=
  (db.writeMemory project r.expected (fun _ => r.memory) r.memory (changeKindOf project) r.amendmentReason).bind fun after =>
    if r.key ∈ after.mutations then none else some { after with mutations := r.key :: after.mutations }

structure Upload where
  root : Root
  expected : Nat
  key : Key
  size : Nat
  amendmentReason : Option String
  allowed : Bool

-- The intent of the key is written and not completed; the counts are those of every root. The
-- kind of the change is that of an earlier reading of the project.
def Upload.batch (r : Upload) (project : Project) (changeKind : ChangeKind) (snapshot : Snapshot) (db : Db) : Option Db :=
  if r.key ∈ db.completed ∨ r.key ∈ db.attachmentReceipts ∨ r.key ∈ db.attachments.map (·.intent) ∨ 100 ≤ db.attachments.length ∨
      536870912 < (db.attachments.map (·.size)).sum + r.size then none
  else (db.writeMemory project r.expected id snapshot changeKind r.amendmentReason).map fun after =>
    { after with
      attachments := after.attachments++[⟨r.key,project.root,r.size,r.expected + 1⟩]
      attachmentReceipts := r.key :: after.attachmentReceipts
      completed := r.key :: after.completed }

-- `sourceContacts` and `sourceMemory` are what the source project's overlay holds.
structure Copy where
  root : Root
  key : Key
  (expectedContacts expectedMemory : Nat)
  selectedContactRoles : List Role
  selectedMemorySections : List Section
  replaceSource : Bool
  sourceContacts : List Assignment
  sourceMemory : Snapshot
  allowed : Bool

def Assignment.comparable (row : Assignment) : String × Role × Option Method × String :=
  (row.contactId,row.role,row.preferredContactMethod,row.instructions)

def Assignment.merged (item current : Assignment) (blank : String → Bool) : Assignment :=
  { item with
    id := current.id
    preferredContactMethod := item.preferredContactMethod <|> current.preferredContactMethod
    instructions := if blank item.instructions then current.instructions else item.instructions }

def Copy.merge (blank : String → Bool) (r : Copy) (rows : List Assignment) (item : Assignment) : List Assignment :=
  match rows.find? fun row => row.contactId = item.contactId && row.role = item.role with
  | none => rows++[{ item with id := .copied item.contactId item.role }]
  | some current =>
    if current.comparable = item.comparable || !r.replaceSource || current.comparable = (item.merged current blank).comparable then rows
    else rows.map fun row => if row.contactId = item.contactId && row.role = item.role then item.merged current blank else row

-- How the runtime orders the ids of two rows and which texts it trims to nothing.
structure Runtime where
  before : RowId → RowId → Bool
  blank : String → Bool

def Copy.contacts (runtime : Runtime) (r : Copy) (destination : List Assignment) : List Assignment :=
  let merged := (r.sourceContacts.filter fun row => row.role ∈ r.selectedContactRoles).foldl (r.merge runtime.blank) destination
  (merged.mergeSort fun a b => a.sortOrder < b.sortOrder || (a.sortOrder = b.sortOrder && runtime.before a.id b.id)).mapIdx fun place row =>
    { row with sortOrder := place, under := r.root }

def Copy.contactsChanged (runtime : Runtime) (r : Copy) (destination : List Assignment) : Bool :=
  (r.contacts runtime destination).map Assignment.comparable ≠ destination.map Assignment.comparable

def Copy.memory (r : Copy) (destination : Snapshot) : Snapshot := fun part =>
  if part ∈ r.selectedMemorySections ∧ r.sourceMemory part ≠ "" ∧ (destination part = "" ∨ r.replaceSource) then r.sourceMemory part
  else destination part

def Copy.memoryChanged (r : Copy) (destination : Snapshot) : Bool :=
  PROJECT_MEMORY_SECTIONS.any fun part => r.memory destination part ≠ destination part

structure Destination where
  contacts : Option ContactSet
  memory : Option Memory
  rows : List Assignment

def Destination.contactsVersion (d : Destination) : Nat := (d.contacts.map (·.version)).getD 0
def Destination.memoryVersion (d : Destination) : Nat := (d.memory.map (·.version)).getD 0
def Destination.snapshot (d : Destination) : Snapshot := (d.memory.map (·.snapshot)).getD emptyMemory

-- Both roots are the context's own and both versions the expected ones.
def Copy.accepts (r : Copy) (d : Destination) : Bool :=
  d.contacts.all (·.root = r.root) && d.memory.all (·.root = r.root) && d.contactsVersion = r.expectedContacts &&
    d.memoryVersion = r.expectedMemory

-- The copy fence stays live at the versions read; what changes is written under its own fence.
def Copy.batch (runtime : Runtime) (r : Copy) (project : Project) (d : Destination) (db : Db) : Option Db :=
  if db.project = project ∧ project.status.copyable ∧ db.contactsVersion = d.contactsVersion ∧ db.memoryVersion = d.memoryVersion ∧
      r.key ∉ db.copies then
    ((if r.contactsChanged runtime d.rows then db.writeContacts project d.contactsVersion d.rows.length (r.contacts runtime d.rows)
        else some db).bind fun middle =>
      if r.memoryChanged d.snapshot then
        middle.writeMemory project d.memoryVersion (fun _ => r.memory d.snapshot) (r.memory d.snapshot) .saved none
      else some middle).map fun after => { after with copies := r.key :: after.copies }
  else none
end LedgeTopOps.ProjectOverlay
