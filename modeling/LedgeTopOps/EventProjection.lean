import LedgeTopOps.AtomicPrograms
import LedgeTopOps.JsonTree
import Mathlib.Data.Rat.Floor

namespace LedgeTopOps.EventProjection
open AtomicPrograms JsonTree

inductive ProjectionResult where
  | applied | duplicate | ignored
  deriving DecidableEq

inductive EntityType where
  | client | organization | businessUnit | projectAssignment | operationAssignment | taskAssignment
  deriving DecidableEq

inductive RecordKind where
  | user | businessUnit | client | organization | project | projectAssignment | operation | task
  deriving DecidableEq

inductive ProjectionAction where
  | upsert | revoke
  deriving DecidableEq

-- A member of an event's data. Other values keep only what String() makes of them.
inductive Value where
  | null
  | text (value : Text)
  | number (value : Int)
  | other (written : Text)

abbrev Data := List (String × Value)

structure Entity where
  type : EntityType
  id : Text

structure ProjectionEvent where
  eventId : Text
  action : ProjectionAction
  sourceUpdatedAt : ℚ
  data : Data

-- Date.parse keeps whole milliseconds of an instant given in seconds.
def milliseconds (instant : ℚ) : Int := (instant*1000).floor

def value (data : Data) (key : String) : Option Text :=
  match data.lookup key with
  | none | some .null => none
  | some (.text current) => some current
  | some (.number current) => some (toString current).toList
  | some (.other written) => some written

def blank (c : Char) : Bool :=
  [9,10,11,12,13,32,160,5760,8232,8233,8239,8287,12288,65279].contains c.toNat || (decide (8192 ≤ c.toNat) && decide (c.toNat ≤ 8202))

def trim (text : Text) : Text := ((text.dropWhile blank).reverse.dropWhile blank).reverse

def requiredValue (data : Data) (key : String) : Except String Text :=
  match (value data key).map trim with
  | none | some [] => .error ("projection-data-"++key++"-required")
  | some current => .ok current

def externalId : Option Value → Except String (Option Text)
  | none | some .null | some (.text []) => .ok none
  | some (.text id) =>
    if 1024 < units id ∨ Char.ofNat 0 ∈ id then .error "project-alpha-source-record-id-invalid" else .ok (some id)
  | some (.number id) =>
    if id.natAbs < 2^53 then .ok (some (toString id).toList) else .error "project-alpha-source-record-id-invalid"
  | some (.other _) => .error "project-alpha-source-record-id-invalid"

def EntityType.fields : EntityType → List (String × RecordKind)
  | .client => [("id",.client),("organization_id",.organization)]
  | .organization => [("id",.organization)]
  | .businessUnit => [("id",.businessUnit)]
  | .projectAssignment => [("id",.projectAssignment),("project_id",.project),("user_id",.user)]
  | .operationAssignment => [("operation_id",.operation),("user_id",.user),("assigned_by",.user),("assigned_by_user_id",.user)]
  | .taskAssignment => [("task_id",.task),("user_id",.user),("assigned_by",.user),("assigned_by_user_id",.user)]

abbrev SourceMap := RecordKind → Text → Option Text

def projectAlphaSourceReferences (row : Data) : List (String × RecordKind) → Except String (List (RecordKind × Text))
  | [] => .ok []
  | (field,kind) :: rest => match externalId (row.lookup field),projectAlphaSourceReferences row rest with
    | .error message,_ => .error message
    | .ok _,.error message => .error message
    | .ok none,.ok found => .ok found
    | .ok (some id),.ok found => .ok ((kind,id) :: found)

def mapFields (row : Data) (ids : SourceMap) : List (String × RecordKind) → Except String Data
  | [] => .ok row
  | (field,kind) :: rest => match externalId (row.lookup field),mapFields row ids rest with
    | .error message,_ => .error message
    | .ok _,.error message => .error message
    | .ok none,.ok mapped => .ok mapped
    | .ok (some id),.ok mapped => match ids kind id with
      | some localId => .ok ((field,.text localId) :: mapped)
      | none => .error "project-alpha-source-reference-unmapped"

def Entity.row (entity : Entity) (event : ProjectionEvent) : Data := ("id",.text entity.id) :: event.data

def mapProjectAlphaSourceRow (entity : Entity) (event : ProjectionEvent) (ids : SourceMap) : Except String Data :=
  mapFields (entity.row event) ids entity.type.fields

inductive RowKey where
  | id (table : EntityType) (id : Text)
  | pair (table : EntityType) (first second : Text)
  deriving DecidableEq

structure Row where
  columns : List (String × Option Text)
  active : Bool
  payload : Data
  lastSync : Text

-- The INSERT … ON CONFLICT … DO UPDATE of the event: every column but the key is set.
def projectedRow (entity : Entity) (event : ProjectionEvent) (ids : SourceMap) : Except String (RowKey × Row) := do
  let data ← mapProjectAlphaSourceRow entity event ids
  let localId ← requiredValue data "id"
  let row (columns : List (String × Option Text)) : Row := ⟨columns,decide (event.action = .upsert),event.data,event.eventId⟩
  match entity.type with
  | .client => .ok (.id .client localId,row [
      ("name",some ((value data "name").getD ("Client ".toList++entity.id))),
      ("organization_id",value data "organization_id")])
  | .organization => .ok (.id .organization localId,row [
      ("name",some ((value data "name").getD ("Organization ".toList++entity.id)))])
  | .businessUnit => .ok (.id .businessUnit localId,row [
      ("name",some ((value data "name").getD ("Business unit ".toList++entity.id))),
      ("code",some ((value data "code").getD ("pa-".toList++entity.id)))])
  | .projectAssignment =>
    let project ← requiredValue data "project_id"
    let user ← requiredValue data "user_id"
    .ok (.id .projectAssignment localId,row [("project_id",some project),("user_id",some user)])
  | .operationAssignment =>
    let operation ← requiredValue data "operation_id"
    let user ← requiredValue data "user_id"
    .ok (.pair .operationAssignment operation user,row [
      ("assignment_role",value data "assignment_role"),
      ("assigned_by_user_id",value data "assigned_by"),
      ("assigned_at",value data "assigned_at")])
  | .taskAssignment =>
    let task ← requiredValue data "task_id"
    let user ← requiredValue data "user_id"
    .ok (.pair .taskAssignment task user,row [
      ("assigned_by_user_id",value data "assigned_by"),
      ("assigned_at",value data "assigned_at")])

-- A lease row, with the call that holds it beside the event it names as owner.
structure Lease where
  ownerEventId : Text
  leaseUntil : Nat
  holder : Option Nat

inductive ReceiptStatus where
  | pending | completed | ignored
  deriving DecidableEq

structure Receipt (Hash : Type) where
  payloadHash : Hash
  status : ReceiptStatus

structure Version where
  sourceUpdatedAt : ℚ
  eventId : Text

-- The tables of one source as far as one entity's events touch them; not stored are the calls whose lease was taken
-- over, and the results returned.
structure Store (Hash : Type) where
  clock : Nat
  (globalLease entityLease : Option Lease)
  receipts : Text → Option (Receipt Hash)
  version : Option Version
  records : SourceMap
  rows : RowKey → Option Row
  overtaken : List Nat
  answers : List (Hash × ProjectionResult)

namespace Store
variable {Hash : Type}

def initial (clock : Nat) (records : SourceMap) : Store Hash :=
  ⟨clock,none,none,fun _ => none,none,records,fun _ => none,[],[]⟩
end Store

def leaseDuration : Nat := 600

-- datetime(lease_until)<=datetime('now'), or no row.
def claimable (lease : Option Lease) (clock : Nat) : Bool := lease.all fun held => decide (held.leaseUntil ≤ clock)
def ownedBy (lease : Option Lease) (owner : Text) : Bool := lease.any fun held => decide (held.ownerEventId = owner)

def claimed (lease : Option Lease) (clock : Nat) (owner : Text) (holder : Option Nat) : Option Lease :=
  if claimable lease clock then some ⟨owner,clock+leaseDuration,holder⟩ else lease

def refreshed (lease : Option Lease) (clock : Nat) (owner : Text) : Option Lease :=
  lease.map fun held => if held.ownerEventId = owner then { held with leaseUntil := clock+leaseDuration } else held

def released (lease : Option Lease) (owner : Text) : Option Lease := lease.filter fun held => decide (held.ownerEventId ≠ owner)

def evicted (lease : Option Lease) (clock : Nat) : List Nat :=
  if claimable lease clock then (lease.bind Lease.holder).toList else []

-- One source, one entity, and what is outside the code: the body behind a payload hash, the identifiers drawn, the
-- length of the portal reconciliation.
structure Source (Hash : Type) where
  entity : Entity
  primary : Bool
  body : Hash → ProjectionEvent
  drawn : Nat → RecordKind → Text → Text
  chunks : Nat → Nat

abbrev Delivery (Hash : Type) := Program (Store Hash) (Option ProjectionResult)

section
variable {Hash : Type} [DecidableEq Hash] (source : Source Hash) (name : Nat) (hash : Hash)

def reserved (requested : List (RecordKind × Text)) (records : SourceMap) : SourceMap := fun kind id =>
  match records kind id with
  | some localId => some localId
  | none => if (kind,id) ∈ requested then some (if source.primary then id else source.drawn name kind id) else none

def settleReceipt (status : ReceiptStatus) (s : Store Hash) : Store Hash where
  __ := s
  receipts := Function.update s.receipts (source.body hash).eventId
    ((s.receipts (source.body hash).eventId).map fun receipt => { receipt with status := status })

def insertedReceipt (s : Store Hash) : Store Hash where
  __ := s
  receipts := if (s.receipts (source.body hash).eventId).isSome then s.receipts
    else Function.update s.receipts (source.body hash).eventId (some ⟨hash,.pending⟩)

def acknowledge : ProjectionResult → Delivery Hash
  | .applied => .call (settleReceipt source hash .completed) (fun _ => .done (some .applied)) (.done none)
  | result => .done (some result)

def releaseGlobalProjection : Option ProjectionResult → Delivery Hash
  | none => .call (fun s => { s with globalLease := released s.globalLease (source.body hash).eventId })
      (fun _ => .done none) (.done none)
  | some result => .call
      (fun s => { s with
        globalLease := released s.globalLease (source.body hash).eventId
        answers := (hash,result) :: s.answers })
      (fun _ => acknowledge source hash result) (.done none)

def releaseProjectionEntity (result : Option ProjectionResult) : Delivery Hash :=
  .call (fun s => { s with entityLease := released s.entityLease (source.body hash).eventId })
    (fun _ => releaseGlobalProjection source hash result) (releaseGlobalProjection source hash none)

def refreshGlobalProjection (further : Delivery Hash) : Delivery Hash :=
  .call (fun s => { s with globalLease := refreshed s.globalLease s.clock (source.body hash).eventId })
    (fun s => if ownedBy s.globalLease (source.body hash).eventId then further else releaseProjectionEntity source hash none)
    (releaseProjectionEntity source hash none)

def refreshProjectionEntityLease (further : Delivery Hash) : Delivery Hash :=
  refreshGlobalProjection source hash <|
    .call (fun s => { s with entityLease := refreshed s.entityLease s.clock (source.body hash).eventId })
      (fun s => if ownedBy s.entityLease (source.body hash).eventId then further else releaseProjectionEntity source hash none)
      (releaseProjectionEntity source hash none)

def writeVersion : Delivery Hash :=
  .call (fun s => { s with version := some ⟨(source.body hash).sourceUpdatedAt,(source.body hash).eventId⟩ })
    (fun _ => releaseProjectionEntity source hash (some .applied)) (releaseProjectionEntity source hash none)

def reconcilePortalProjectionAccess (further : Delivery Hash) : Nat → Delivery Hash
  | 0 => further
  | batches+1 => refreshGlobalProjection source hash <|
    .read (releaseProjectionEntity source hash none) fun _ => reconcilePortalProjectionAccess further batches

-- The portal's own database is not part of the store.
def applyPortalProjection (further : Delivery Hash) : Delivery Hash :=
  match source.primary,source.entity.type with
  | true,.client | true,.organization =>
    .read (releaseProjectionEntity source hash none) fun _ => .read (releaseProjectionEntity source hash none) fun _ =>
      reconcilePortalProjectionAccess source hash further (source.chunks name)
  | _,_ => further

def writeRow (written : RowKey × Row) : Delivery Hash :=
  refreshProjectionEntityLease source hash <|
    .call (fun s => { s with rows := Function.update s.rows written.1 (some written.2) })
      (fun _ => refreshProjectionEntityLease source hash <|
        applyPortalProjection source name hash <| refreshProjectionEntityLease source hash <| writeVersion source hash)
      (releaseProjectionEntity source hash none)

def projectEntity : Delivery Hash :=
  match projectAlphaSourceReferences (source.entity.row (source.body hash)) source.entity.type.fields with
  | .error _ => releaseProjectionEntity source hash none
  | .ok requested =>
    .read (releaseProjectionEntity source hash none) fun _ =>
      .call (fun s => { s with records := reserved source name requested s.records })
        (fun s => match projectedRow source.entity (source.body hash) (reserved source name requested s.records) with
          | .error _ => releaseProjectionEntity source hash none
          | .ok written => writeRow source name hash written)
        (releaseProjectionEntity source hash none)

def ignoreEvent : Delivery Hash :=
  .call (settleReceipt source hash .ignored)
    (fun _ => releaseProjectionEntity source hash (some .ignored)) (releaseProjectionEntity source hash none)

def outdated (event : ProjectionEvent) (latest : Option Version) : Bool :=
  latest.any fun marker => decide (milliseconds event.sourceUpdatedAt ≤ milliseconds marker.sourceUpdatedAt)

def marked (event : ProjectionEvent) (latest : Option Version) : Bool :=
  latest.any fun marker => decide (marker.eventId = event.eventId)

def compareVersion (receipt : Option (Receipt Hash)) : Delivery Hash :=
  .read (releaseProjectionEntity source hash none) fun s =>
    if outdated (source.body hash) s.version then
      if receipt.any (fun held => decide (held.status = .pending)) && marked (source.body hash) s.version then
        releaseProjectionEntity source hash (some .applied)
      else ignoreEvent source hash
    else projectEntity source name hash

def claimProjectionEntity (receipt : Option (Receipt Hash)) : Delivery Hash :=
  .call (fun s => { s with entityLease := claimed s.entityLease s.clock (source.body hash).eventId (some name) })
    (fun s => if claimable s.entityLease s.clock then compareVersion source name hash receipt
      else releaseGlobalProjection source hash none)
    (releaseGlobalProjection source hash none)

def insertReceipt : Delivery Hash :=
  .call (insertedReceipt source hash)
    (fun s => if (s.receipts (source.body hash).eventId).isSome then releaseGlobalProjection source hash none
      else claimProjectionEntity source name hash none)
    (releaseGlobalProjection source hash none)

def applyProjectionEventLocked : Delivery Hash :=
  .read (releaseGlobalProjection source hash none) fun s =>
    match s.receipts (source.body hash).eventId with
    | none => insertReceipt source name hash
    | some receipt =>
      if receipt.payloadHash ≠ hash then releaseGlobalProjection source hash none
      else if receipt.status = .completed ∨ receipt.status = .ignored then
        releaseGlobalProjection source hash (some .duplicate)
      else claimProjectionEntity source name hash (some receipt)

def applyProjectionEventForSource : Delivery Hash :=
  .call (fun s => { s with
      globalLease := claimed s.globalLease s.clock (source.body hash).eventId (some name)
      overtaken := evicted s.globalLease s.clock++s.overtaken })
    (fun s => if claimable s.globalLease s.clock then applyProjectionEventLocked source name hash else .done none)
    (.done none)
end

-- Time passes; other traffic of the source takes, refreshes and gives back the global lease, and reserves
-- identifiers.
inductive Elsewhere {Hash : Type} (s : Store Hash) : Store Hash → Prop where
  | tick (later : s.clock ≤ clock) : Elsewhere s { s with clock := clock }
  | claim (free : claimable s.globalLease s.clock = true) : Elsewhere s { s with
      globalLease := some ⟨owner,s.clock+leaseDuration,none⟩
      overtaken := evicted s.globalLease s.clock++s.overtaken }
  | refresh (other : s.globalLease = some ⟨owner,earlier,none⟩) :
      Elsewhere s { s with globalLease := some ⟨owner,s.clock+leaseDuration,none⟩ }
  | release (other : s.globalLease = some ⟨owner,earlier,none⟩) : Elsewhere s { s with globalLease := none }
  | reserve (kept : ∀ kind id localId, s.records kind id = some localId → records kind id = some localId) :
      Elsewhere s { s with records := records }

def setting {Hash : Type} [DecidableEq Hash] (source : Source Hash) :
    Setting (Store Hash) Nat Hash (Option ProjectionResult) where
  code name hash := applyProjectionEventForSource source name hash
  enter _ _ _ := True
  may name _ s := name ∉ s.overtaken
  outside := Elsewhere
end LedgeTopOps.EventProjection
