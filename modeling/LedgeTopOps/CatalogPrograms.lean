import LedgeTopOps.AtomicPrograms
import LedgeTopOps.CatalogTables

namespace LedgeTopOps.CatalogMirror
open KeyedRows AtomicPrograms

inductive DeliveryBody where
  | snapshotPage (snapshotHash : String) (pageNumber pageCount itemCount : Nat) (items : List Item)
  | snapshotActivate (snapshotHash : String) (pageCount itemCount : Nat)
  | event (event : CatalogEvent)

structure Delivery where
  (deliveryId sourceGeneration : String)
  sourceSequence : Nat
  body : DeliveryBody
  payloadHash : String

-- What is called: a delivery, with the identifier a new generation would get, a promotion, or a page to stage.
inductive Request where
  | deliver (delivery : Delivery) (minted : String)
  | promote (authority : PromotionAuthority)
  | stage (page : InventoryPage)

inductive Answer where
  | completed | ignored | duplicate | rejected (code : String)
  | promoted (generation : String) (sequence : Nat) | alreadyPromoted (generation : String) (sequence : Nat)
  | staged (page : InventoryPage) | alreadyStaged (page : InventoryPage)
deriving DecidableEq

abbrev Code := Program Tables Answer

-- A batch that a violated constraint rolls back. Its answer may be lost on the way back.
def attempt (batch : Tables → Option Tables) (threw failed next : Code) : Code :=
  .call (fun t => (batch t).getD t) (fun t => if (batch t).isSome then .read failed fun _ => next else threw) failed

section
variable (delivery : Delivery)

def raced (code : String) : Code :=
  .read (.done (.rejected code)) fun t =>
    match find Receipt.deliveryId t.receipts delivery.deliveryId with
    | some receipt => .done (if receipt.payloadHash = delivery.payloadHash then .duplicate else .rejected "catalog-delivery-id-conflict")
    | none => .done (.rejected code)

def checkpointGuard (checkpoint : Checkpoint) (t : Tables) : Bool := decide (t.checkpoint = some checkpoint)
def generationGuard (generation : Generation) (t : Tables) : Bool := t.generations.any (· = generation)
def Delivery.receipt (status : ReceiptStatus) : Receipt := ⟨delivery.deliveryId,delivery.payloadHash,status,delivery.sourceSequence⟩

def Tables.generationNamed (t : Tables) (sourceGeneration : String) : Option Generation :=
  find Generation.sourceGeneration t.generations sourceGeneration

def Tables.pageOf (t : Tables) (generation : String) (pageNumber : Nat) : Option GenerationPage :=
  t.pages.find? fun page => page.generation = generation && page.pageNumber = pageNumber

def pageBatch (minted snapshotHash : String) (pageNumber pageCount itemCount : Nat) (items : List Item)
    (checkpoint : Checkpoint) (generation : Option Generation) (existing : Option GenerationPage) (t : Tables) : Option Tables :=
  let id := (generation.map Generation.id).getD minted
  let t := t.ensureCheckpoint
  let generationStands := match generation with
    | some generation => generationGuard generation t
    | none => !t.generations.any fun other => other.sourceGeneration = delivery.sourceGeneration || other.sourceSequence = delivery.sourceSequence
  let pageStands := match existing with
    | some page => (t.pageOf id pageNumber).any fun other => other.payloadHash = page.payloadHash
    | none => (t.pageOf id pageNumber).isNone
  (t.insertReceipt (delivery.receipt (if existing.isSome then .ignored else .completed))
      (checkpointGuard checkpoint t && generationStands && pageStands)).bind fun (t : Tables) =>
    if existing.isSome then some t else
    (match generation with
      | some _ => some t
      | none => t.insertGeneration ⟨minted,delivery.sourceGeneration,delivery.sourceSequence,snapshotHash,pageCount,itemCount,.staging,false⟩).bind fun (t : Tables) =>
    (t.insertPage ⟨id,pageNumber,items.length,.body delivery.payloadHash⟩).bind fun (t : Tables) =>
    (items.foldlM (fun (t : Tables) item => t.insertItem ⟨id,pageNumber,item⟩) t).map fun (t : Tables) =>
    { t with accepted := t.accepted++[(⟨id,pageNumber,items⟩ : Accepted)],taken := t.taken++[delivery.deliveryId] }

def stageSnapshotPage (minted snapshotHash : String) (pageNumber pageCount itemCount : Nat) (items : List Item) : Code :=
  let failed := raced delivery "catalog-internal-error"
  .read failed fun t =>
    let checkpoint := t.checkpoint.getD ⟨none,"legacy",0⟩
    if delivery.sourceSequence ≤ checkpoint.sourceSequence then raced delivery "catalog-snapshot-stale" else
    .read failed fun t =>
      let generation := t.generationNamed delivery.sourceGeneration
      if generation.any fun row => row.sourceSequence ≠ delivery.sourceSequence || row.snapshotHash ≠ snapshotHash || row.pageCount ≠ pageCount ||
          row.itemCount ≠ itemCount || row.status ≠ .staging then raced delivery "catalog-generation-conflict" else
      let write (existing : Option GenerationPage) : Code :=
        if existing.any fun page => page.payloadHash ≠ .body delivery.payloadHash then raced delivery "catalog-page-conflict" else
        attempt (pageBatch delivery minted snapshotHash pageNumber pageCount itemCount items checkpoint generation existing)
          (raced delivery "catalog-projection-conflict") failed (.done (if existing.isSome then .ignored else .completed))
      match generation with
      | some generation => .read failed fun t => write (t.pageOf generation.id pageNumber)
      | none => write none

def versionConflict (t : Tables) (items : List Item) : Bool :=
  items.any fun staged => t.rows.any fun current => current.item.key = staged.key && current.item.differs staged

def received (t : Tables) (generation : String) (pageCount itemCount : Nat) : Bool :=
  let pages := t.pagesOf generation
  decide (pages.length = pageCount) && decide ((pages.map GenerationPage.itemCount).foldl (· + ·) 0 = itemCount) &&
    decide ((pages.map GenerationPage.pageNumber).min? = some 1) && decide ((pages.map GenerationPage.pageNumber).max? = some pageCount)

def Tables.moveCheckpoint (t : Tables) (checkpoint : Checkpoint) : Tables := { t with checkpoint := some checkpoint }

def activateBatch (pageCount itemCount : Nat) (generation : Generation) (checkpoint : Checkpoint) (t : Tables) : Option Tables :=
  let guard := checkpointGuard checkpoint t && generationGuard generation t && decide ((t.itemsOf generation.id).length = itemCount) &&
    received t generation.id pageCount itemCount && !versionConflict t (t.itemsOf generation.id)
  (t.insertReceipt (delivery.receipt .completed) guard).bind fun (t : Tables) =>
  (t.mirror generation.id delivery.sourceSequence (t.itemsOf generation.id)).map fun (t : Tables) =>
  { t with
    generations := t.generations.map (Generation.activated generation.id)
    checkpoint := some ⟨some generation.id,delivery.sourceGeneration,delivery.sourceSequence⟩
    taken := t.taken++[delivery.deliveryId]
    events := [] }

def replayBatch (generation : Generation) (checkpoint : Checkpoint) (t : Tables) : Option Tables :=
  t.insertReceipt (delivery.receipt .ignored) (checkpointGuard checkpoint t && generationGuard generation t)

def activateSnapshot (snapshotHash : String) (pageCount itemCount : Nat) : Code :=
  let failed := raced delivery "catalog-internal-error"
  .read failed fun t => match t.generationNamed delivery.sourceGeneration with
    | none => raced delivery "catalog-generation-incomplete"
    | some generation =>
      if generation.sourceSequence ≠ delivery.sourceSequence || generation.snapshotHash ≠ snapshotHash || generation.pageCount ≠ pageCount ||
          generation.itemCount ≠ itemCount then raced delivery "catalog-generation-incomplete" else
      .read failed fun t => match t.checkpoint with
        | none => raced delivery "catalog-checkpoint-missing"
        | some checkpoint =>
          if checkpoint.sourceSequence = delivery.sourceSequence && checkpoint.activeGeneration = some generation.id && generation.status = .active then
            attempt (replayBatch delivery generation checkpoint) (raced delivery "catalog-projection-conflict") failed (.done .ignored)
          else if delivery.sourceSequence ≤ checkpoint.sourceSequence || generation.status ≠ .staging then raced delivery "catalog-snapshot-stale" else
          .read failed fun t =>
            if (t.itemsOf generation.id).length ≠ itemCount then raced delivery "catalog-generation-incomplete" else
            .read failed fun t =>
              if !received t generation.id pageCount itemCount then raced delivery "catalog-generation-incomplete" else
              .read failed fun t =>
                if versionConflict t (t.itemsOf generation.id) then raced delivery "catalog-source-version-conflict" else
                attempt (activateBatch delivery pageCount itemCount generation checkpoint) (raced delivery "catalog-projection-conflict") failed (.done .completed)

def CatalogEvent.publicId : CatalogEvent → String
  | .upsert item => item.publicId
  | .tombstone publicId _ => publicId
def CatalogEvent.sourceVersion : CatalogEvent → String
  | .upsert item => item.sourceVersion
  | .tombstone _ sourceVersion => sourceVersion
def CatalogEvent.upserted : CatalogEvent → List Item
  | .upsert item => [item]
  | .tombstone _ _ => []

def eventBatch (event : CatalogEvent) (active : String) (checkpoint : Checkpoint) (t : Tables) : Option Tables :=
  let guard := checkpointGuard checkpoint t &&
    t.generations.any (fun row => row.id = active && row.sourceGeneration = checkpoint.sourceGeneration && row.status = .active && row.complete) &&
    !versionConflict t event.upserted
  (t.insertReceipt (delivery.receipt .completed) guard).bind fun (t : Tables) =>
  (event.upserted.foldlM (fun (t : Tables) item => t.upsertRow item) (t.deactivate (· = event.publicId))).map fun (t : Tables) =>
  { t.upsertEntity ⟨event.publicId,event.sourceVersion,delivery.sourceSequence,decide (event.upserted ≠ [])⟩ with
    checkpoint := t.checkpoint.map fun checkpoint => { checkpoint with sourceSequence := delivery.sourceSequence }
    taken := t.taken++[delivery.deliveryId]
    events := t.events++[(delivery.sourceSequence,event)] }

def applyEvent (event : CatalogEvent) : Code :=
  let failed := raced delivery "catalog-internal-error"
  .read failed fun t => match t.checkpoint with
    | none => raced delivery "catalog-event-generation-mismatch"
    | some checkpoint => match checkpoint.activeGeneration with
      | none => raced delivery "catalog-event-generation-mismatch"
      | some active =>
        if delivery.sourceGeneration ≠ checkpoint.sourceGeneration then raced delivery "catalog-event-generation-mismatch" else
        if delivery.sourceSequence ≠ checkpoint.sourceSequence + 1 then raced delivery "catalog-event-sequence-gap" else
        .read failed fun t =>
          if versionConflict t event.upserted then raced delivery "catalog-source-version-conflict" else
          attempt (eventBatch delivery event active checkpoint) (raced delivery "catalog-projection-conflict") failed (.done .completed)

def applyCatalogProjectionDelivery (minted : String) : Code :=
  .read (.done (.rejected "catalog-internal-error")) fun t =>
    match find Receipt.deliveryId t.receipts delivery.deliveryId with
    | some receipt => .done (if receipt.payloadHash = delivery.payloadHash then .duplicate else .rejected "catalog-delivery-id-conflict")
    | none => match delivery.body with
      | .snapshotPage hash number pages count items => stageSnapshotPage delivery minted hash number pages count items
      | .snapshotActivate hash pages count => activateSnapshot delivery hash pages count
      | .event event => applyEvent delivery event
end

section
variable (authority : PromotionAuthority)

def PromotionAuthority.generation : String := "ops-inventory:"++toString authority.registryId++":"++authority.snapshotId
def PromotionAuthority.sourceGeneration : String := authority.identity.historyEpoch++":"++authority.snapshotId

def Tables.registered (t : Tables) : Bool :=
  t.registries.any fun row => row.id = authority.registryId && row.identity = authority.identity && row.staging
def Tables.competing (t : Tables) : Bool := t.registries.any fun row => row.staging && row.id ≠ authority.registryId
def itemCount (pages : List InventoryPage) : Nat := (pages.map fun page => page.items.length).foldl (· + ·) 0
def terminals (pages : List InventoryPage) : Nat := (pages.filter fun page => page.nextCursor.isNone).length

def summaryComplete (pages : List InventoryPage) : Bool :=
  within 1 100 pages.length && decide (itemCount pages ≤ 500) && pages.all (fun page => page.items.length ≤ 50) &&
    decide ((pages.map InventoryPage.pageIndex).min? = some 0) && decide ((pages.map InventoryPage.pageIndex).max? = some (pages.length - 1)) &&
    decide (terminals pages = 1) && decide ((pages.map InventoryPage.totalCount).min? = some (itemCount pages)) &&
    decide ((pages.map InventoryPage.totalCount).max? = some (itemCount pages))

def pageCountMismatch (t : Tables) : Bool :=
  (t.snapshotPages authority.registryId authority.snapshotId).any fun page =>
    (t.stagedItems.filter fun item => item.registryId = page.registryId && item.snapshotId = page.snapshotId && item.pageIndex = page.pageIndex).length ≠
      page.items.length

def canonicalMismatch (t : Tables) : Bool :=
  (t.snapshotItems authority.registryId authority.snapshotId).any fun item => !within 1 160 (trimmedLength item.name)

def nonTerminal (pages : List InventoryPage) (count : Nat) : Bool :=
  pages.any fun page => (decide (page.pageIndex < count - 1) && page.nextCursor.isNone) || (decide (page.pageIndex = count - 1) && page.nextCursor.isSome)

def snapshotGuard (expectedPages expectedItems : Nat) (t : Tables) : Bool :=
  let pages := t.snapshotPages authority.registryId authority.snapshotId
  decide (pages.length = expectedPages) && within 1 100 pages.length && decide (itemCount pages = expectedItems) && decide (itemCount pages ≤ 500) &&
    decide ((pages.map InventoryPage.pageIndex).min? = some 0) && decide ((pages.map InventoryPage.pageIndex).max? = some (pages.length - 1)) &&
    decide ((pages.map InventoryPage.totalCount).min? = some (itemCount pages)) &&
    decide ((pages.map InventoryPage.totalCount).max? = some (itemCount pages)) && decide (terminals pages = 1) &&
    decide ((pages.filter fun page => page.pageIndex = expectedPages - 1 && page.nextCursor.isNone).length = 1) &&
    pages.all (fun page => page.items.length ≤ 50) &&
    decide ((t.snapshotItems authority.registryId authority.snapshotId).length = expectedItems) && !pageCountMismatch authority t && !canonicalMismatch authority t

def authorityGuard (expectedPages expectedItems : Nat) (expectedGeneration : Option String) (t : Tables) : Bool :=
  t.registered authority && !t.competing authority &&
    !t.generations.any (fun row => row.id = authority.generation || row.sourceGeneration = authority.sourceGeneration) &&
    decide (t.sequence = authority.expectedSourceSequence) && decide (t.activeGeneration.getD "" = expectedGeneration.getD "") &&
    !versionConflict t (t.snapshotItems authority.registryId authority.snapshotId) && snapshotGuard authority expectedPages expectedItems t

def promoteBatch (checked : List InventoryPage) (checkpoint : Option Checkpoint) (t : Tables) : Option Tables :=
  let pages := t.snapshotPages authority.registryId authority.snapshotId
  let items := t.snapshotItems authority.registryId authority.snapshotId
  let sequence := authority.expectedSourceSequence + 1
  if !authorityGuard authority checked.length (itemCount checked) (checkpoint.bind Checkpoint.activeGeneration) t then none else
  (t.insertGeneration ⟨authority.generation,authority.sourceGeneration,sequence,authority.snapshotId,checked.length,itemCount checked,.active,true⟩).bind fun (t : Tables) =>
  (pages.foldlM (fun (t : Tables) page => t.insertPage ⟨authority.generation,page.pageIndex + 1,page.items.length,.page page⟩) t).bind fun (t : Tables) =>
  ((t.stagedItems.filter fun item => item.registryId = authority.registryId && item.snapshotId = authority.snapshotId).foldlM
    (fun (t : Tables) item => t.insertItem ⟨authority.generation,item.pageIndex + 1,item.item⟩) t).bind fun (t : Tables) =>
  (t.mirror authority.generation sequence items).bind fun (t : Tables) =>
  let moved : Checkpoint := ⟨some authority.generation,authority.sourceGeneration,sequence⟩
  if checkpoint.isNone && t.checkpoint.isSome then none else
  some { t with
    checkpoint := if checkpoint.isNone then some moved else
      t.checkpoint.map fun current => if current.sourceSequence = authority.expectedSourceSequence then moved else current
    accepted := t.accepted++pages.map fun page => ⟨authority.generation,page.pageIndex + 1,page.items⟩
    events := []
    promotions := t.promotions++[⟨authority,checked,pages,items⟩] }

def unpromoted (code : String) : Code :=
  .read (.done (.rejected code)) fun t => match t.generationNamed authority.sourceGeneration with
    | some row =>
      if row.status = .active && row.complete && t.activeGeneration = some row.id && t.sequence = row.sourceSequence then
        .done (.alreadyPromoted row.id row.sourceSequence) else .done (.rejected code)
    | none => .done (.rejected code)

def promoteOpsInventoryCatalogSnapshot : Code :=
  let failed := unpromoted authority "temporarily-unavailable"
  let refused (code : String) : Code := .done (.rejected code)
  .read failed fun t => if !t.registered authority then refused "source-unavailable" else
  .read failed fun t => if t.competing authority then refused "source-unavailable" else
  .read failed fun t =>
  let pages := t.snapshotPages authority.registryId authority.snapshotId
  .read failed fun t =>
  let stagedItems := (t.snapshotItems authority.registryId authority.snapshotId).length
  .read failed fun t =>
  let mismatch := pageCountMismatch authority t
  .read failed fun t =>
  if !summaryComplete pages || stagedItems ≠ itemCount pages || mismatch || canonicalMismatch authority t then refused "incomplete" else
  .read failed fun t => if nonTerminal (t.snapshotPages authority.registryId authority.snapshotId) pages.length then refused "incomplete" else
  .read failed fun t =>
  let checkpoint := t.checkpoint
  .read failed fun t =>
  match t.generations.find? fun row => row.id = authority.generation || row.sourceGeneration = authority.sourceGeneration with
  | some row =>
    if row.id = authority.generation && row.sourceGeneration = authority.sourceGeneration && row.snapshotHash = authority.snapshotId &&
        row.pageCount = pages.length && row.itemCount = itemCount pages && row.status = .active && row.complete &&
        checkpoint.any fun at_ => at_.activeGeneration = some row.id && at_.sourceSequence = row.sourceSequence then
      .done (.alreadyPromoted row.id row.sourceSequence)
    else refused (if row.sourceSequence ≤ (checkpoint.map Checkpoint.sourceSequence).getD 0 then "stale" else "conflict")
  | none =>
    if (checkpoint.map Checkpoint.sourceSequence).getD 0 ≠ authority.expectedSourceSequence then refused "stale" else
    .read failed fun t =>
    if versionConflict t (t.snapshotItems authority.registryId authority.snapshotId) then refused "conflict" else
    attempt (promoteBatch authority pages checkpoint) (unpromoted authority "conflict") failed
      (.done (.promoted authority.generation (authority.expectedSourceSequence + 1)))
end

section
variable (page : InventoryPage)

def Tables.accepts (t : Tables) : Bool :=
  t.registries.any fun row => row.id = page.registryId && row.identity = page.identity && row.staging

def Tables.stagedPage (t : Tables) : Option InventoryPage :=
  t.stagedPages.find? fun other => other.registryId = page.registryId && other.snapshotId = page.snapshotId && other.pageIndex = page.pageIndex

def sameRow (one other : InventoryPage) : Bool :=
  decide (one.registryId = other.registryId) &&
    ((decide (one.snapshotId = other.snapshotId) && decide (one.pageIndex = other.pageIndex)) || decide (one.requestId = other.requestId))

def Tables.insertStagedItem (t : Tables) (row : StagedItem) : Option Tables :=
  if t.stagedPages.any (fun page => page.registryId = row.registryId && page.snapshotId = row.snapshotId && page.pageIndex = row.pageIndex) &&
      !t.stagedItems.any (fun other => other.registryId = row.registryId && other.snapshotId = row.snapshotId && other.item.publicId = row.item.publicId) then
    some { t with stagedItems := t.stagedItems++[row] }
  else none

-- Where the registry no longer takes pages the first statement inserts nothing.
def stageBatch (t : Tables) : Option Tables :=
  (if t.accepts page then
    if t.stagedPages.any (sameRow page) then none else some { t with stagedPages := t.stagedPages++[page] }
  else some t).bind fun t =>
  page.items.foldlM (fun (t : Tables) item => t.insertStagedItem ⟨page.registryId,page.snapshotId,page.pageIndex,item⟩) t

def totalOf (pages : List InventoryPage) : Option Nat := pages.head?.map InventoryPage.totalCount

def answered : Code :=
  let unavailable : Code := .done (.rejected "temporarily-unavailable")
  .read unavailable fun t => if !t.accepts page then .done (.rejected "source-unavailable") else
  .read unavailable fun t =>
    if t.stagedPage page = some page then .done (.alreadyStaged page) else .done (.rejected "conflict")

def stageOpsInventoryCatalogPage : Code :=
  let unavailable : Code := .done (.rejected "temporarily-unavailable")
  let refused (code : String) : Code := .done (.rejected code)
  .read unavailable fun t => if !t.accepts page then refused "source-unavailable" else
  .read unavailable fun t => match t.stagedPage page with
  | some existing => if existing = page then .done (.alreadyStaged page) else refused "conflict"
  | none =>
    .read unavailable fun t =>
    if (totalOf (t.snapshotPages page.registryId page.snapshotId)).any fun total => total ≠ page.totalCount then refused "conflict" else
    .read unavailable fun t =>
    if (t.snapshotItems page.registryId page.snapshotId).length + page.items.length > page.totalCount then refused "conflict" else
    .read unavailable fun t =>
    if (t.snapshotItems page.registryId page.snapshotId).any fun item => (page.items.map Item.publicId).contains item.publicId then refused "conflict" else
    .call (fun t => (stageBatch page t).getD t)
      (fun t => if (stageBatch page t).isSome then
          .read unavailable fun _ => if t.accepts page then .done (.staged page) else refused "source-unavailable"
        else answered page) unavailable
end

def code (_ : Nat) : Request → Code
  | .deliver delivery minted => applyCatalogProjectionDelivery delivery minted
  | .promote authority => promoteOpsInventoryCatalogSnapshot authority
  | .stage page => stageOpsInventoryCatalogPage page
end LedgeTopOps.CatalogMirror
