import LedgeTopOps.SqlBatches
import Mathlib.Data.List.Sort
import Mathlib.Data.List.Lex

namespace LedgeTopOps.JobBriefs
open AtomicPrograms SqlBatches

structure ScopeItem where
  (id category title instructions : String)
  sortOrder : Nat
  presetRef : Option String
  deriving DecidableEq

inductive SourceKind where
  | staffUpload
  | projectFile
  deriving DecidableEq

inductive ChangeKind where
  | scopeSaved
  | attachmentAdded

structure Principal where
  (id email displayName : String)

structure NewAttachment where
  id : String
  sourceKind : SourceKind
  sourceReference : Option String
  (objectKey displayName contentType : String)
  size : Nat
  etag : String

structure AttachmentRow where
  attachment : NewAttachment
  versionAdded : Nat
  (createdBy createdByName : String)

structure AttachmentDto where
  id : String
  versionAdded : Nat
  sourceKind : SourceKind
  (displayName contentType : String)
  size : Nat
  createdBy : String × String
  deriving DecidableEq

inductive DocumentStatus where
  | draft
  | published
  | archived
  deriving DecidableEq

structure SopDocument where
  slug : String
  status : DocumentStatus
  publishedRevisionId : Option String

-- No table of contents is one that does not parse to an array.
structure SopRevision where
  sopId : String
  revisionNumber : Nat
  (title purpose renderedHtml : String)
  toc : Option String
  author : String × String
  publishedAt : Option String

inductive PublicationState where
  | current
  | superseded
  | archived
  | unpublished
  deriving DecidableEq

structure SopLinkRow where
  (sopId revisionId : String)
  revision : SopRevision
  document : SopDocument

structure SopLinkDto where
  (sopId revisionId : String)
  revisionNumber : Nat
  (slug title purpose html toc : String)
  author : String × String
  publishedAt : Option String
  publicationState : PublicationState
  deriving DecidableEq

structure Snapshot where
  items : List ScopeItem
  attachments : List AttachmentDto
  sops : List SopLinkDto
  mutationId : Nat
  deriving DecidableEq

structure Brief where
  version : Nat
  snapshot : Snapshot
  (createdBy updatedBy : String)

structure Attached where
  attachment : NewAttachment
  versionAdded : Nat
  createdBy : String

structure Revision where
  version : Nat
  changeKind : ChangeKind
  snapshot : Snapshot
  author : Principal

structure Link where
  (sopId revisionId linkedBy : String)

structure Audit where
  actor : Principal
  changeKind : ChangeKind
  (version itemCount attachmentCount sopCount : Nat)
  attachmentId : Option String
  attachmentSource : Option SourceKind

-- The five tables of one operation's brief, the staff and SOP tables they refer
-- to, and the versions that reads and mutations have returned so far.
structure Db where
  brief : Option Brief
  attachments : List Attached
  revisions : List Revision
  links : List Link
  audit : List Audit
  staff : String → Option String
  documents : String → Option SopDocument
  sopRevisions : String → Option SopRevision
  returned : List Nat

def Db.initial (staff : String → Option String) (documents : String → Option SopDocument)
    (sopRevisions : String → Option SopRevision) : Db :=
  { brief := none, attachments := [], revisions := [], links := [], audit := [], staff := staff, documents := documents,
    sopRevisions := sopRevisions, returned := [] }

def currentVersion (db : Db) : Nat := (db.brief.map Brief.version).getD 0
def codes (text : String) : List Nat := text.toList.map Char.toNat

-- COLLATE NOCASE folds the letters of ASCII.
def nocase (text : String) : List Nat := text.toList.map fun c => c.toLower.toNat
def ordered (key : α → List (List Nat)) (rows : List α) : List α := rows.insertionSort fun left right => key left ≤ key right

def loadAttachments (db : Db) : List AttachmentRow :=
  ordered (fun row => [[row.versionAdded],codes row.attachment.id]) (db.attachments.filterMap fun row =>
    (db.staff row.createdBy).map fun name => ⟨row.attachment,row.versionAdded,row.createdBy,name⟩)

def titled (row : SopLinkRow) : List (List Nat) := [nocase row.revision.title,codes row.revisionId]

def joined (db : Db) (link : Link) : Option SopLinkRow :=
  (db.documents link.sopId).bind fun document => (db.sopRevisions link.revisionId).bind fun revision =>
    if revision.sopId = link.sopId then some ⟨link.sopId,link.revisionId,revision,document⟩ else none

def loadLinkedSops (db : Db) : List SopLinkRow := ordered titled (db.links.filterMap (joined db))

def linked (db : Db) (sopId revisionId : String) : Bool :=
  db.links.any fun link => decide (link.sopId = sopId) && decide (link.revisionId = revisionId)

def published (document : SopDocument) (revisionId : String) : Bool :=
  decide (document.status = .published) && decide (document.publishedRevisionId = some revisionId)

def selectable (db : Db) (revisionId : String) : Option SopLinkRow :=
  (db.sopRevisions revisionId).bind fun revision => (db.documents revision.sopId).bind fun document =>
    if published document revisionId || linked db revision.sopId revisionId then
      some ⟨revision.sopId,revisionId,revision,document⟩ else none

def selectedSops (db : Db) (revisionIds : List String) : List SopLinkRow :=
  ordered titled (revisionIds.filterMap (selectable db))

def attachmentDto (row : AttachmentRow) : AttachmentDto :=
  ⟨row.attachment.id,row.versionAdded,row.attachment.sourceKind,row.attachment.displayName,row.attachment.contentType,
    row.attachment.size,(row.createdBy,row.createdByName)⟩

def publicationState (row : SopLinkRow) : PublicationState :=
  if row.document.status = .archived then .archived
  else if row.document.status ≠ .published then .unpublished
  else match row.document.publishedRevisionId with
    | none => .unpublished
    | some revisionId => if revisionId = row.revisionId then .current else .superseded

def sopLinkDto (row : SopLinkRow) : Option SopLinkDto :=
  row.revision.toc.map fun toc =>
    ⟨row.sopId,row.revisionId,row.revision.revisionNumber,row.document.slug,row.revision.title,row.revision.purpose,
      row.revision.renderedHtml,toc,row.revision.author,row.revision.publishedAt,publicationState row⟩

def parseSnapshot (snapshot : Snapshot) : Option (List ScopeItem) :=
  if snapshot.items.length ≤ 50 ∧ snapshot.attachments.length ≤ 500 ∧ snapshot.sops.length ≤ 20 then some snapshot.items
  else none

-- What a request is made of. `mutationId` is the UUID of its snapshot.
structure Mutation where
  principal : Principal
  expectedVersion : Nat
  snapshot : Snapshot
  changeKind : ChangeKind
  attachment : Option NewAttachment

def wins (expectedVersion : Nat) (db : Db) : Bool :=
  if expectedVersion = 0 then db.brief.isNone else decide (db.brief.map Brief.version = some expectedVersion)

-- INSERT OR IGNORE of version 1, or UPDATE … WHERE version=?.
def mutateBrief (mutation : Mutation) : Statement Db :=
  guarded (fun db _ => wins mutation.expectedVersion db) fun db =>
    if (db.staff mutation.principal.id).isSome then
      some { db with brief := some {
        version := mutation.expectedVersion+1, snapshot := mutation.snapshot,
        createdBy := (db.brief.map Brief.createdBy).getD mutation.principal.id, updatedBy := mutation.principal.id } }
    else none

def insertAttachment (mutation : Mutation) (attachment : NewAttachment) : Statement Db :=
  guarded (fun _ changes => decide (changes = 1)) fun db =>
    if db.attachments.any fun row =>
        decide (row.attachment.id = attachment.id) || decide (row.attachment.objectKey = attachment.objectKey) then none
    else if (db.staff mutation.principal.id).isSome then
      some { db with attachments := db.attachments++[⟨attachment,mutation.expectedVersion+1,mutation.principal.id⟩] }
    else none

def Mutation.revision (mutation : Mutation) : Revision :=
  ⟨mutation.expectedVersion+1,mutation.changeKind,mutation.snapshot,mutation.principal⟩

def insertRevision (mutation : Mutation) : Statement Db :=
  guarded (fun _ changes => decide (changes = 1)) fun db =>
    if db.revisions.any fun row => decide (row.version = mutation.expectedVersion+1) then none
    else some { db with revisions := db.revisions++[mutation.revision] }

def Mutation.audited (mutation : Mutation) : Audit :=
  ⟨mutation.principal,mutation.changeKind,mutation.expectedVersion+1,mutation.snapshot.items.length,
    mutation.snapshot.attachments.length,mutation.snapshot.sops.length,mutation.attachment.map NewAttachment.id,
    mutation.attachment.map NewAttachment.sourceKind⟩

def insertAudit (mutation : Mutation) : Statement Db :=
  guarded (fun _ changes => decide (changes = 1)) fun db => some { db with audit := db.audit++[mutation.audited] }

def mutationStatements (mutation : Mutation) : List (Statement Db) :=
  mutateBrief mutation :: (mutation.attachment.toList.map (insertAttachment mutation)
    ++[insertRevision mutation,insertAudit mutation])

-- EXISTS (SELECT 1 FROM operational_job_briefs WHERE version=? AND snapshot_json=?)
def holds (mutation : Mutation) (db : Db) : Bool :=
  db.brief.any fun brief => decide (brief.version = mutation.expectedVersion+1) && decide (brief.snapshot = mutation.snapshot)

def deleteLinks (mutation : Mutation) (retained : List String) : Statement Db := fun db _ =>
  if holds mutation db then
    let kept := db.links.filter fun link => retained.contains link.revisionId
    some ({ db with links := kept },db.links.length-kept.length)
  else some (db,0)

def insertLink (mutation : Mutation) (row : SopLinkRow) : Statement Db :=
  guarded (fun db _ => holds mutation db) fun db =>
    if !(db.documents row.sopId).any fun document => published document row.revisionId then none
    else if !(db.sopRevisions row.revisionId).any fun revision => decide (revision.sopId = row.sopId) then none
    else if db.links.any fun link => decide (link.revisionId = row.revisionId) || decide (link.sopId = row.sopId) then none
    else if (db.staff mutation.principal.id).isSome then
      some { db with links := db.links++[⟨row.sopId,row.revisionId,mutation.principal.id⟩] }
    else none

def linkStatements (mutation : Mutation) (selected current : List SopLinkRow) : List (Statement Db) :=
  deleteLinks mutation (selected.map SopLinkRow.revisionId) ::
    (selected.filter fun row => !(current.map SopLinkRow.revisionId).contains row.revisionId).map (insertLink mutation)

inductive Outcome where
  | won
  | lost
  | threw

def outcome (counts : List Nat) : Program Db Outcome := .done (if counts.headD 0 = 0 then .lost else .won)
def submit (statements : List (Statement Db)) : Program Db Outcome := transact statements (.done .threw) outcome

section
variable (name : Nat) (principal : Principal) (expectedVersion : Nat)

def saveScope (items : List ScopeItem) : Program Db Outcome :=
  .read (.done .threw) fun first =>
    let attachments := loadAttachments first
    .read (.done .threw) fun second =>
      match (loadLinkedSops second).mapM sopLinkDto with
      | none => .done .threw
      | some sops =>
        let sorted := items.zipIdx.map fun item => { item.1 with sortOrder := item.2 }
        submit (mutationStatements
          ⟨principal,expectedVersion,⟨sorted,attachments.map attachmentDto,sops,name⟩,.scopeSaved,none⟩)

-- SELECT snapshot_json FROM operational_job_briefs WHERE operation_id=? AND version=?
def snapshotAt (db : Db) : Option Snapshot :=
  (db.brief.filter fun brief => decide (brief.version = expectedVersion)).map Brief.snapshot

def storedItems (current : Option Snapshot) : Option (List ScopeItem) :=
  match current with
  | some snapshot => parseSnapshot snapshot
  | none => some []

def addAttachment (attachment : NewAttachment) : Program Db Outcome :=
  .read (.done .threw) fun first =>
    let current := snapshotAt expectedVersion first
    if 0 < expectedVersion ∧ current = none then .done .lost
    else match storedItems current with
      | none => .done .threw
      | some items => .read (.done .threw) fun second =>
        let attachments := loadAttachments second
        .read (.done .threw) fun third =>
          match (loadLinkedSops third).mapM sopLinkDto with
          | none => .done .threw
          | some sops =>
            let added : AttachmentRow := ⟨attachment,expectedVersion+1,principal.id,principal.displayName⟩
            submit (mutationStatements ⟨principal,expectedVersion,
              ⟨items,attachments.map attachmentDto++[attachmentDto added],sops,name⟩,.attachmentAdded,some attachment⟩)

def replaceFrom (revisionIds : List String) (current : Option Snapshot) (currentLinks : List SopLinkRow) : Program Db Outcome :=
  if 0 < expectedVersion ∧ current = none then .done .lost
  else .read (.done .threw) fun third =>
    let selected := selectedSops third revisionIds
    if selected.length ≠ revisionIds.length then .done .threw
    else match storedItems current with
      | none => .done .threw
      | some items => .read (.done .threw) fun fourth =>
        let attachments := loadAttachments fourth
        match selected.mapM sopLinkDto with
        | none => .done .threw
        | some sops =>
          let mutation : Mutation :=
            ⟨principal,expectedVersion,⟨items,attachments.map attachmentDto,sops,name⟩,.scopeSaved,none⟩
          submit (mutationStatements mutation++linkStatements mutation selected currentLinks)

def replaceSopLinks (revisionIds : List String) (linksFirst : Bool) : Program Db Outcome :=
  .read (.done .threw) fun first => .read (.done .threw) fun second =>
    if linksFirst then
      replaceFrom name principal expectedVersion revisionIds (snapshotAt expectedVersion second) (loadLinkedSops first)
    else replaceFrom name principal expectedVersion revisionIds (snapshotAt expectedVersion first) (loadLinkedSops second)
end

inductive Change where
  | scope (items : List ScopeItem)
  | attachment (attachment : NewAttachment)
  | sops (revisionIds : List String) (unique : revisionIds.Nodup) (linksFirst : Bool)

structure Request where
  principal : Principal
  expectedVersion : Nat
  change : Change

def code (name : Nat) (request : Request) : Program Db Outcome :=
  match request.change with
  | .scope items => saveScope name request.principal request.expectedVersion items
  | .attachment attachment => addAttachment name request.principal request.expectedVersion attachment
  | .sops revisionIds _ linksFirst => replaceSopLinks name request.principal request.expectedVersion revisionIds linksFirst

-- What other requests do: a version is read, staff and the SOP library change; no row a brief can refer to goes away,
-- and revisions are immutable.
structure Outside (before after : Db) : Prop where
  brief : after.brief = before.brief
  attachments : after.attachments = before.attachments
  revisions : after.revisions = before.revisions
  links : after.links = before.links
  audit : after.audit = before.audit
  staff : ∀ id, (before.staff id).isSome → (after.staff id).isSome
  documents : ∀ id, (before.documents id).isSome → (after.documents id).isSome
  sopRevisions : ∀ id revision, before.sopRevisions id = some revision → after.sopRevisions id = some revision
  returned : ∀ version ∈ after.returned, version = currentVersion before ∨ version ∈ before.returned

-- No stored snapshot carries a UUID that has just been drawn.
def Unused (name : Nat) (db : Db) : Prop := ∀ revision ∈ db.revisions, revision.snapshot.mutationId ≠ name

def setting : Setting Db Nat Request Outcome where
  code := code
  enter name request db := request.expectedVersion ∈ db.returned ∧ Unused name db
  may _ _ _ := True
  outside := Outside
end LedgeTopOps.JobBriefs
