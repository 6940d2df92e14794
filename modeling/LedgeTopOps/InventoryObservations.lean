import LedgeTopOps.InventoryReaders
import LedgeTopOps.KeyedRows
import LedgeTopOps.StepRuns

namespace LedgeTopOps.InventoryObservations
open KeyedRows TextPatterns StepRuns InventoryReaders

inductive InventoryKind where
  | directory | project
deriving DecidableEq

inductive ResourceType where
  | source | organization | client | project
deriving DecidableEq

def resourceType : DirectoryType → ResourceType
  | .client => .client
  | .organization => .organization

inductive Item where
  | resource (resource : Resource)
  | project (project : Project)
deriving DecidableEq

def Item.kind : Item → InventoryKind
  | .resource _ => .directory
  | .project _ => .project
def Item.type : Item → ResourceType
  | .resource item => resourceType item.type
  | .project _ => .project
def Item.publicId : Item → Text
  | .resource item => item.publicId
  | .project item => item.publicId
def Item.externalId : Item → Option Text
  | .resource item => item.binding.map Binding.externalId
  | .project item => some item.externalId
def Item.revision : Item → Text
  | .resource item => item.revision
  | .project item => item.revision

structure Identity where
  (sourceId sourceInstanceId applicationId historyEpoch : Text)
deriving DecidableEq

structure Page where
  identity : Identity
  kind : InventoryKind
  (requestId authorizationGeneration : Text)
  (requestedCursor nextCursor : Option Text)
  items : List Item
deriving DecidableEq

def canonicalDirectoryPage (sourceId : Text) (inventory : Body Resource) (requestedCursor : Option Text) : Page :=
  ⟨⟨sourceId,inventory.sourceInstanceId,inventory.applicationId,inventory.historyEpoch⟩,.directory,inventory.requestId,
    inventory.authorizationGeneration,requestedCursor,inventory.nextCursor,inventory.items.map .resource⟩

def canonicalProjectPage (sourceId : Text) (inventory : Body Project) (requestedCursor : Option Text) : Page :=
  ⟨⟨sourceId,inventory.sourceInstanceId,inventory.applicationId,inventory.historyEpoch⟩,.project,inventory.requestId,
    inventory.authorizationGeneration,requestedCursor,inventory.nextCursor,inventory.items.map .project⟩

structure Receipt where
  page : Page
  observedAt : Nat

abbrev RequestKey := Identity × InventoryKind × Text

def Page.request (page : Page) : RequestKey := (page.identity,page.kind,page.requestId)
def Receipt.request (receipt : Receipt) : RequestKey := receipt.page.request

structure Observation where
  identity : Identity
  requestId : Text
  item : Item

def Observation.request (row : Observation) : RequestKey := (row.identity,row.item.kind,row.requestId)
def Observation.key (row : Observation) : Identity × Text × ResourceType × Text := (row.identity,row.requestId,row.item.type,row.item.publicId)

inductive ConflictKind where
  | request_reuse_mismatch | source_identity_changed | authorization_generation_regressed | revision_regressed
  | revision_reuse_mismatch | external_id_collision | public_id_binding_changed | binding_disappeared | ops_mapping_mismatch
deriving DecidableEq

structure Conflict where
  request : RequestKey
  resourceType : ResourceType
  (publicId externalId : Option Text)
  priorReference : Text
  conflictKind : ConflictKind

-- What the unique index compares: an absent text counts as the empty one.
def Conflict.key (row : Conflict) : RequestKey × ResourceType × Text × Text × Text × ConflictKind :=
  (row.request,row.resourceType,row.publicId.getD [],row.externalId.getD [],row.priorReference,row.conflictKind)

structure Mapping where
  identity : Identity
  type : ResourceType
  (externalId publicId : Text)

structure Tables where
  receipts : List Receipt
  observations : List Observation
  conflicts : List Conflict
  mappings : List Mapping

section

-- length() stops at the first NUL.
def sqlLength (value : Text) : Nat := (value.takeWhile (· ≠ '\x00')).length
def isHex (digits : Nat) (value : Text) : Bool := decide (sqlLength value = digits) && decide (value = value.map lowerCase) && value.all lowerHex
def isNumber (value : Text) : Bool :=
  value.head?.any decimal && value.all decimal && decide (value.length ≤ 19) && (decide (value.length < 19) || !decide (maximumInteger < value))
def isRevision (value : Text) : Bool := value.head?.any (· != '0') && isNumber value
def isGeneration (value : Text) : Bool := isNumber value && (value == ['0'] || value.head?.all (· != '0'))
def isExternalId (value : Text) : Bool := decide (1 ≤ sqlLength value) && decide (sqlLength value ≤ 764)

def isSource (value : Text) : Bool :=
  decide (15 ≤ sqlLength value) && decide (sqlLength value ≤ 78) &&
    led "project-alpha:".toList (fun rest => rest.head?.any lowerAlphanumeric && rest.all fun c => lowerAlphanumeric c || among ['_','-'] c) value

def Receipt.check (receipt : Receipt) : Bool :=
  isSource receipt.page.identity.sourceId && decide (sqlLength receipt.page.identity.sourceInstanceId = 36) &&
    decide (sqlLength receipt.page.identity.applicationId = 36) && decide (sqlLength receipt.page.identity.historyEpoch = 36) &&
    decide (sqlLength receipt.page.requestId = 36) && isGeneration receipt.page.authorizationGeneration &&
    decide (receipt.page.items.length ≤ 200)

def Item.check : Item → Bool
  | .resource item => isHex 32 item.publicId && isRevision item.revision && isHex 64 item.projectionSha256 &&
      ((item.present && decide (item.lastAction = .upsert)) || (!item.present && decide (item.lastAction = .delete))) &&
      item.binding.all fun binding => isExternalId binding.externalId && isRevision binding.resourceRevision
  | .project item => isExternalId item.externalId && isHex 32 item.publicId && isNumber item.revision &&
      (item.revision == ['0'] || item.revision.head?.all (· != '0')) && isHex 64 item.projectionSha256
end

section
variable (t : Tables)

def foremost (better : α → α → Bool) : List α → Option α
  | [] => none
  | first :: rest => some (((foremost better rest).filter fun other => better other first).getD first)

def Tables.record (conflict : Conflict) : Tables :=
  if t.conflicts.any (·.key = conflict.key) then t else { t with conflicts := t.conflicts++[conflict] }

def Tables.flag (prior : Option α) (conflict : α → Conflict) : Tables :=
  match prior with
  | some prior => t.record (conflict prior)
  | none => t

def later (left right : Text) : Bool :=
  decide (right.length < left.length) || (decide (left.length = right.length) && decide (right < left))

def Identity.otherOf (left right : Identity) : Bool := decide (left.sourceId = right.sourceId) && decide (left ≠ right)

def newest (left right : Receipt) : Bool :=
  decide (right.observedAt < left.observedAt) || (decide (left.observedAt = right.observedAt) && decide (right.page.requestId < left.page.requestId))

def highestGeneration (left right : Receipt) : Bool :=
  later left.page.authorizationGeneration right.page.authorizationGeneration ||
    (decide (left.page.authorizationGeneration = right.page.authorizationGeneration) && decide (right.observedAt < left.observedAt))

def Identity.text (identity : Identity) : Text :=
  identity.sourceInstanceId++ ':' :: identity.applicationId++ ':' :: identity.historyEpoch

def Tables.source_identity_conflict (receipt : Receipt) : Tables :=
  t.flag (foremost newest (t.receipts.filter fun prior => prior.page.identity.otherOf receipt.page.identity))
    fun prior => ⟨receipt.request,.source,none,none,prior.page.identity.text,.source_identity_changed⟩

def Tables.generation_conflict (receipt : Receipt) : Tables :=
  t.flag (foremost highestGeneration (t.receipts.filter fun prior =>
      decide (prior.page.identity = receipt.page.identity) && later prior.page.authorizationGeneration receipt.page.authorizationGeneration))
    fun prior => ⟨receipt.request,.source,none,none,prior.page.requestId,.authorization_generation_regressed⟩

-- A trigger of the tables of observations: which stored row it looks for, in which order, and what it records.
structure Trigger where
  conflictKind : ConflictKind
  fires : Item → Item → Bool
  better : Observation → Observation → Bool

def lastRequest (left right : Observation) : Bool := decide (right.requestId < left.requestId)
def highestRevision (left right : Observation) : Bool := later left.item.revision right.item.revision

def Tables.fire (trigger : Trigger) (row : Observation) : Tables :=
  t.flag (foremost trigger.better (t.observations.filter fun prior =>
      decide (prior.identity = row.identity) && decide (prior.item.type = row.item.type) && trigger.fires prior.item row.item))
    fun prior => ⟨row.request,row.item.type,some row.item.publicId,row.item.externalId,prior.requestId,trigger.conflictKind⟩

def samePublicId (prior new : Item) : Bool := decide (prior.publicId = new.publicId)

def Item.differs : Item → Item → Bool
  | .resource prior, .resource new => decide (prior.present ≠ new.present) || decide (prior.lastAction ≠ new.lastAction) ||
      decide (prior.projectionSha256 ≠ new.projectionSha256) ||
      decide (prior.binding.map Binding.externalId ≠ new.binding.map Binding.externalId) ||
      decide (prior.binding.map Binding.status ≠ new.binding.map Binding.status) ||
      decide (prior.binding.map Binding.resourceRevision ≠ new.binding.map Binding.resourceRevision)
  | .project prior, .project new => decide (prior.externalId ≠ new.externalId) || decide (prior.projectionSha256 ≠ new.projectionSha256) ||
      decide (prior.status ≠ new.status) || decide (prior.archived ≠ new.archived)
  | _, _ => false

def Item.active : Item → Bool
  | .resource item => item.binding.any fun binding => binding.status = .active
  | .project _ => false

def revision_regressed : Trigger :=
  ⟨.revision_regressed,fun prior new => samePublicId prior new && later prior.revision new.revision,highestRevision⟩
def revision_reuse : Trigger :=
  ⟨.revision_reuse_mismatch,fun prior new => samePublicId prior new && decide (prior.revision = new.revision) && prior.differs new,lastRequest⟩
def external_collision : Trigger :=
  ⟨.external_id_collision,fun prior new => new.externalId.isSome && decide (prior.externalId = new.externalId) && !samePublicId prior new,lastRequest⟩
def public_binding_change : Trigger :=
  ⟨.public_id_binding_changed,fun prior new => new.externalId.isSome && samePublicId prior new && prior.externalId.isSome &&
    decide (prior.externalId ≠ new.externalId),lastRequest⟩
def binding_disappeared : Trigger :=
  ⟨.binding_disappeared,fun prior new => new.externalId.isNone && samePublicId prior new && prior.active,lastRequest⟩

def Mapping.mismatches (mapping : Mapping) (row : Observation) : Bool :=
  decide (mapping.identity = row.identity) && decide (mapping.type = row.item.type) &&
    (decide (mapping.publicId = row.item.publicId) || decide (some mapping.externalId = row.item.externalId)) &&
    (decide (mapping.publicId ≠ row.item.publicId) || decide (some mapping.externalId ≠ row.item.externalId))

def Mapping.text (mapping : Mapping) : Text := "ops-mapping:".toList++mapping.externalId++ ':' :: mapping.publicId

def Tables.mapping_mismatch (row : Observation) : Tables :=
  t.flag (t.mappings.find? (·.mismatches row))
    fun mapping => ⟨row.request,row.item.type,some row.item.publicId,row.item.externalId,mapping.text,.ops_mapping_mismatch⟩

def triggers : InventoryKind → List Trigger
  | .directory => [revision_regressed,revision_reuse,external_collision,public_binding_change,binding_disappeared]
  | .project => [revision_regressed,revision_reuse,external_collision,public_binding_change]

-- AFTER INSERT: the new row is among those the triggers read.
def Tables.observed (row : Observation) : Tables :=
  ((triggers row.item.kind).foldl (fun (t : Tables) trigger => t.fire trigger row) { t with observations := t.observations++[row] }).mapping_mismatch row
end

section
variable (page : Page) (now : Nat) (t : Tables)

def requestReuseConflict : Tables :=
  match t.receipts.find? fun receipt => receipt.request = page.request && receipt.page ≠ page with
  | some _ => t.record ⟨page.request,.source,none,none,"request:".toList++page.requestId,.request_reuse_mismatch⟩
  | none => t

def receiptInsert : Tables :=
  let receipt : Receipt := ⟨page,now⟩
  if receipt.check && !t.receipts.any (·.request = receipt.request) then
    ({ t with receipts := t.receipts++[receipt] }.source_identity_conflict receipt).generation_conflict receipt
  else t

def observationInsert (item : Item) : Tables :=
  let row : Observation := ⟨page.identity,page.requestId,item⟩
  if t.receipts.any (fun receipt => receipt.request = page.request && receipt.page = page) then
    if row.item.check && !t.observations.any (·.key = row.key) then t.observed row else t
  else t

def batch : Tables := page.items.foldl (fun t item => observationInsert page t item) (receiptInsert page now (requestReuseConflict page t))
def conflictCount : Nat := (t.conflicts.filter (·.request = page.request)).length
end

inductive Answer where
  | persisted (itemCount conflictCount : Nat) | conflicted (itemCount conflictCount : Nat) | blocked
deriving DecidableEq

inductive Stage where
  | writing | reading | counting (itemCount : Nat) | answered (answer : Answer)
deriving DecidableEq

structure Call where
  page : Page
  stage : Stage

def persistProjectAlphaDirectoryInventoryPage (sourceId : Text) (inventory : Body Resource) (requestedCursor : Option Text) : Call :=
  ⟨canonicalDirectoryPage sourceId inventory requestedCursor,.writing⟩

def persistProjectAlphaProjectInventoryPage (sourceId : Text) (inventory : Body Project) (requestedCursor : Option Text) : Call :=
  ⟨canonicalProjectPage sourceId inventory requestedCursor,.writing⟩

structure World where
  tables : Tables
  calls : List Call

def initial : World := ⟨⟨[],[],[],[]⟩,[]⟩

inductive Outcome where
  | returns | lost | fails

def persistedPageResult (count : Nat) (itemCount : Nat) : Answer :=
  if count = 0 then .persisted itemCount count else .conflicted itemCount count

inductive Action where
  | directory (sourceId : Text) (query : DirectoryQuery) (connection : Connection) (requestId : Option Text) (body : Body Resource) (requestedCursor : Option Text)
  | project (sourceId : Text) (limit : Nat) (connection : Connection) (requestId : Option Text) (body : Body Project) (requestedCursor : Option Text)
  | write (place now : Nat) (outcome : Outcome)
  | read (place : Nat) (works : Bool)
  | count (place : Nat) (works : Bool)
  | map (mappings : List Mapping)

section
variable (w : World)

def World.goes (place : Nat) (call : Call) (stage : Stage) : World := { w with calls := w.calls.set place { call with stage } }

def World.write (place now : Nat) (call : Call) : Outcome → World
  | .returns => { w with tables := batch call.page now w.tables }.goes place call .reading
  | .lost => { w with tables := batch call.page now w.tables }.goes place call (.answered .blocked)
  | .fails => w.goes place call (.answered .blocked)

-- The read of the receipt, which carries the page of its first writer.
def World.receiptRead (page : Page) : Stage :=
  match find Receipt.request w.tables.receipts page.request with
  | some receipt => if receipt.page = page then .counting receipt.page.items.length else .answered .blocked
  | none => .answered .blocked

def next (control : Char → Bool) (w : World) : Action → Option World
  | .directory sourceId query connection requestId body cursor =>
    if inventorySuccess control query connection requestId body then
      some { w with calls := w.calls++[persistProjectAlphaDirectoryInventoryPage sourceId body cursor] }
    else none
  | .project sourceId limit connection requestId body cursor =>
    if valid control limit connection requestId body then
      some { w with calls := w.calls++[persistProjectAlphaProjectInventoryPage sourceId body cursor] }
    else none
  | .write place now outcome => w.calls[place]?.bind fun call =>
    if call.stage = .writing then some (w.write place now call outcome) else none
  | .read place works => w.calls[place]?.bind fun call =>
    if call.stage = .reading then some (w.goes place call (if works then w.receiptRead call.page else .answered .blocked)) else none
  | .count place works => w.calls[place]?.bind fun call =>
    match call.stage with
    | .counting itemCount =>
      some (w.goes place call (.answered (if works then persistedPageResult (conflictCount call.page w.tables) itemCount else .blocked)))
    | _ => none
  | .map mappings => some { w with tables := { w.tables with mappings } }
end

def Contradict (prior new : Item) : Prop :=
  (prior.publicId = new.publicId ∧ prior.revision = new.revision ∧ prior ≠ new) ∨
  (prior.externalId.isSome ∧ prior.externalId = new.externalId ∧ prior.publicId ≠ new.publicId) ∨
  (prior.publicId = new.publicId ∧ prior.externalId.isSome ∧ new.externalId.isSome ∧ prior.externalId ≠ new.externalId)

instance : Decidable (Contradict prior new) := inferInstanceAs (Decidable (_ ∨ _ ∨ _))

def Tables.itemsOf (t : Tables) (page : Page) : List Item := (t.observations.filter (·.request = page.request)).map Observation.item

def Tables.Uncontradicted (t : Tables) (page : Page) : Prop :=
  t.observations.Pairwise fun prior row => row.request = page.request → prior.identity = row.identity → prior.item.type = row.item.type →
    ¬Contradict prior.item row.item

def Page.Consistent (page : Page) : Prop :=
  ∀ one ∈ page.items, ∀ other ∈ page.items, one.type = other.type → ¬Contradict one other

structure Evidence (w : World) : Prop where
  bound : Keyed Receipt.request w.tables.receipts
  complete : ∀ call ∈ w.calls, ∀ items conflicts, call.stage = .answered (.persisted items conflicts) ∨ call.stage = .answered (.conflicted items conflicts) →
    w.tables.itemsOf call.page = call.page.items
  noticed : ∀ call ∈ w.calls, ∀ items conflicts, call.stage = .answered (.persisted items conflicts) →
    w.tables.Uncontradicted call.page ∧ call.page.Consistent

def distinct : Action → Bool
  | .project _ _ _ _ body _ => decide (body.items.map Project.publicId).Nodup
  | _ => true
end LedgeTopOps.InventoryObservations
