import LedgeTopOps.UpsertedRows

namespace LedgeTopOps.CatalogMirror
open UpsertedRows

inductive GeometryRequirement where
  | none | optional | required
deriving DecidableEq

-- An item with its content; the questions are their JSON text.
structure Item where
  (publicId sourceVersion name : String)
  summary : Option String
  category : String
  displayOrder : Nat
  geometryRequirement : GeometryRequirement
  questions : String
deriving DecidableEq

def Item.key (item : Item) : String × String := (item.publicId,item.sourceVersion)

-- length(trim(..)), where trim takes blanks only.
def trimmedLength (text : String) : Nat :=
  ((text.toList.dropWhile (· = ' ')).reverse.dropWhile (· = ' ')).length

def within (least most n : Nat) : Bool := decide (least ≤ n) && decide (n ≤ most)

-- The CHECKs that the tables of items share.
def Item.check (item : Item) : Bool :=
  within 1 128 item.publicId.length && within 1 128 item.sourceVersion.length && within 1 160 (trimmedLength item.name) &&
    item.summary.all (fun summary => within 1 1000 (trimmedLength summary)) && within 1 100 (trimmedLength item.category) &&
    decide (item.displayOrder ≤ 1000000)

def Item.differs (current staged : Item) : Bool :=
  decide (current.name ≠ staged.name) || decide (current.summary.getD "" ≠ staged.summary.getD "") ||
    decide (current.category ≠ staged.category) || decide (current.displayOrder ≠ staged.displayOrder) ||
    decide (current.geometryRequirement ≠ staged.geometryRequirement) || decide (current.questions ≠ staged.questions)

structure Checkpoint where
  activeGeneration : Option String
  sourceGeneration : String
  sourceSequence : Nat
deriving DecidableEq

inductive GenerationStatus where
  | staging | active | superseded
deriving DecidableEq

structure Generation where
  (id sourceGeneration : String)
  sourceSequence : Nat
  snapshotHash : String
  (pageCount itemCount : Nat)
  status : GenerationStatus
  complete : Bool
deriving DecidableEq

structure GenerationItem where
  generation : String
  pageNumber : Nat
  item : Item
deriving DecidableEq

structure CatalogRow where
  item : Item
  active : Bool
deriving DecidableEq

def CatalogRow.key (row : CatalogRow) : String × String := row.item.key

structure EntityState where
  (publicId sourceVersion : String)
  sourceSequence : Nat
  active : Bool
deriving DecidableEq

inductive ReceiptStatus where
  | completed | ignored
deriving DecidableEq

structure Receipt where
  (deliveryId payloadHash : String)
  status : ReceiptStatus
  sourceSequence : Nat
deriving DecidableEq

structure SourceIdentity where
  (sourceInstanceId applicationId historyEpoch : String)
deriving DecidableEq

structure Registry where
  id : Nat
  identity : SourceIdentity
  staging : Bool
deriving DecidableEq

-- A page as Operations sends it. The digest of its canonical text is identified with it.
structure InventoryPage where
  registryId : Nat
  identity : SourceIdentity
  pageIndex : Nat
  (requestId snapshotId : String)
  totalCount : Nat
  items : List Item
  nextCursor : Option String
deriving DecidableEq

inductive PayloadHash where
  | body (hash : String)
  | page (page : InventoryPage)
deriving DecidableEq

def Generation.superseded (kept : String) (row : Generation) : Generation :=
  if row.status = .active && row.id ≠ kept then { row with status := .superseded } else row

def Generation.activated (wanted : String) (row : Generation) : Generation :=
  if row.id = wanted && row.status = .staging then { row with status := .active,complete := true } else row

structure GenerationPage where
  generation : String
  (pageNumber itemCount : Nat)
  payloadHash : PayloadHash
deriving DecidableEq

structure StagedItem where
  registryId : Nat
  snapshotId : String
  pageIndex : Nat
  item : Item
deriving DecidableEq

inductive CatalogEvent where
  | upsert (item : Item)
  | tombstone (publicId sourceVersion : String)
deriving DecidableEq

structure PromotionAuthority where
  registryId : Nat
  identity : SourceIdentity
  snapshotId : String
  expectedSourceSequence : Nat
deriving DecidableEq

-- What a promotion did: the pages it had checked, those its batch found, and what it activated.
structure Promotion where
  authority : PromotionAuthority
  (checked pages : List InventoryPage)
  items : List Item
deriving DecidableEq

structure Accepted where
  generation : String
  pageNumber : Nat
  items : List Item
deriving DecidableEq

-- The tables of one source. The last four fields are histories: the pages accepted, the deliveries that took effect,
-- the events since the last activation, and the promotions.
structure Tables where
  checkpoint : Option Checkpoint
  generations : List Generation
  pages : List GenerationPage
  items : List GenerationItem
  rows : List CatalogRow
  entities : List EntityState
  receipts : List Receipt
  registries : List Registry
  stagedPages : List InventoryPage
  stagedItems : List StagedItem
  accepted : List Accepted
  taken : List String
  events : List (Nat × CatalogEvent)
  promotions : List Promotion
deriving DecidableEq

def Tables.empty : Tables := ⟨none,[],[],[],[],[],[],[],[],[],[],[],[],[]⟩

section
variable (t : Tables)

def Tables.sequence : Nat := (t.checkpoint.map Checkpoint.sourceSequence).getD 0
def Tables.activeGeneration : Option String := t.checkpoint.bind Checkpoint.activeGeneration
def Tables.itemsOf (generation : String) : List Item := (t.items.filter (·.generation = generation)).map GenerationItem.item
def Tables.pagesOf (generation : String) : List GenerationPage := t.pages.filter (·.generation = generation)
def Tables.snapshotPages (registry : Nat) (snapshot : String) : List InventoryPage :=
  t.stagedPages.filter fun page => page.registryId = registry && page.snapshotId = snapshot
def Tables.snapshotItems (registry : Nat) (snapshot : String) : List Item :=
  (t.stagedItems.filter fun item => item.registryId = registry && item.snapshotId = snapshot).map StagedItem.item
end

variable (t : Tables)

def Tables.insertReceipt (receipt : Receipt) (guard : Bool) : Option Tables :=
  if guard && decide (1 ≤ receipt.sourceSequence) && !t.receipts.any (·.deliveryId = receipt.deliveryId) then
    some { t with receipts := t.receipts++[receipt] }
  else none

def Tables.ensureCheckpoint : Tables :=
  match t.checkpoint with
  | some _ => t
  | none => { t with checkpoint := some ⟨none,"legacy",0⟩ }

def Tables.insertGeneration (generation : Generation) : Option Tables :=
  if within 1 100 generation.pageCount && decide (generation.itemCount ≤ 500) && decide (1 ≤ generation.sourceSequence) &&
      !t.generations.any (fun other => other.id = generation.id || other.sourceGeneration = generation.sourceGeneration ||
        other.sourceSequence = generation.sourceSequence) then
    some { t with generations := t.generations++[generation] }
  else none

def Tables.insertPage (page : GenerationPage) : Option Tables :=
  if within 1 100 page.pageNumber && decide (page.itemCount ≤ 50) &&
      !t.pages.any (fun other => other.generation = page.generation && other.pageNumber = page.pageNumber) then
    some { t with pages := t.pages++[page] }
  else none

def Tables.insertItem (row : GenerationItem) : Option Tables :=
  if row.item.check && !t.items.any (fun other => other.generation = row.generation && other.item.publicId = row.item.publicId) then
    some { t with items := t.items++[row] }
  else none

def oneActive (rows : List CatalogRow) : Bool := decide ((rows.filter (·.active)).map fun row => row.item.publicId).Nodup

def Tables.upsertRow (item : Item) : Option Tables :=
  let rows := upsert CatalogRow.key t.rows ⟨item,true⟩ fun row => { row with active := true }
  if item.check && oneActive rows then some { t with rows } else none

def Tables.deactivate (which : String → Bool) : Tables :=
  { t with rows := t.rows.map fun row => if which row.item.publicId then { row with active := false } else row }

def Tables.upsertEntity (state : EntityState) : Tables :=
  { t with entities := upsert EntityState.publicId t.entities state fun _ => state }

def Tables.mirror (generation : String) (sequence : Nat) (items : List Item) : Option Tables :=
  (items.foldlM (fun t item => Tables.upsertRow t item) (t.deactivate fun _ => true)).map fun t =>
    let t : Tables := { t with entities := t.entities.map fun state => { state with active := false,sourceSequence := sequence } }
    let t := items.foldl (fun t item => t.upsertEntity ⟨item.publicId,item.sourceVersion,sequence,true⟩) t
    { t with generations := t.generations.map (Generation.superseded generation) }
end LedgeTopOps.CatalogMirror
