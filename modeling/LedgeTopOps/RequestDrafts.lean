import LedgeTopOps.SqlBatches
import LedgeTopOps.KeyedRows
import LedgeTopOps.TextPatterns
import Mathlib.Data.List.Sort
import Mathlib.Data.Rat.Defs

namespace LedgeTopOps.RequestDrafts
open AtomicPrograms SqlBatches TextPatterns KeyedRows Function

inductive GeometryRequirement where
  | none | optional | required
  deriving DecidableEq

-- Question schemas, answers and areas are kept as their JSON texts.
structure CatalogItem where
  (publicId sourceVersion name : String)
  summary : Option String
  category : String
  displayOrder : Nat
  geometryRequirement : GeometryRequirement
  questions : String

structure Selection where
  item : CatalogItem
  answers : String

structure SelectionInput where
  (publicId sourceVersion answers : String)

structure Reviewed where
  (publicId sourceVersion : String)

-- requestFields: the input without its area and its services.
structure Fields where
  projectId : Option String
  (requestType title details : String)
  (location preferredStartAt deliverables siteContactName siteContactEmail siteContactPhone desiredCompletionAt : Option String)
  (latitude longitude : Option Rat)
  poiPoints : List (Rat × Rat × Option String)

structure Input where
  fields : Fields
  areaGeoJson : Option String
  services : List SelectionInput

inductive Role where
  | manager | member
  deriving DecidableEq

inductive State where
  | draft | submitted
  deriving DecidableEq

-- A row of client_service_request_drafts. `author` names the call whose input the
-- row's current version has.
structure Draft where
  id : Nat
  projectId : Option String
  createdBy : String
  state : State
  version : Nat
  fields : Fields
  areaGeoJson : Option String
  (areaSquareMeters areaAcres : Option Rat)
  (createKey createFingerprint : String)
  submittedRequestId : Option Nat
  (submitKey submitFingerprint : Option String)
  lastMutationKey : String
  author : Nat

structure ServiceRow where
  (owner ordinal : Nat)
  service : Selection

structure MutationRow where
  draftId : Nat
  (mutationKey mutationFingerprint : String)
  (resultingVersion author : Nat)
  deriving DecidableEq

structure RequestRow where
  id : Nat
  fields : Fields
  (createdBy serviceCategory : String)
  areaGeoJson : Option String
  (idempotencyKey requestFingerprint : String)

structure Loaded where
  id : Nat
  state : State
  version : Nat
  fields : Fields
  areaGeoJson : Option String
  (areaSquareMeters areaAcres : Option Rat)
  services : List Selection
  submittedRequestId : Option Nat

inductive AttachmentBlock where
  | attachmentsPending | attachmentsRejected | attachmentsExpired

inductive Incomplete where
  | requestFields
  | answers (servicePublicIds : List String)
  | geometryRequired (servicePublicIds : List String)
  | catalogChanged (servicePublicIds : List String)
  | serviceAssignmentsChanged (servicePublicIds : List String)
  | attachments (block : AttachmentBlock) (attachmentCount : Nat)

inductive Outcome where
  | created (draft : Loaded)
  | updated (draft : Loaded)
  | replayed (draft : Loaded)
  | submitted (request : RequestRow)
  | replayedRequest (request : RequestRow)
  | conflict
  | catalogChanged (servicePublicIds : List String)
  | serviceAssignmentsChanged (servicePublicIds : List String)
  | incomplete (reason : Incomplete)
  | unavailable
  | threw

-- conflict, catalog_changed, service_assignments_changed, incomplete and null.
def Outcome.refused : Outcome → Bool
  | .conflict | .catalogChanged _ | .serviceAssignmentsChanged _ | .incomplete _ | .unavailable => true
  | _ => false

-- What the account's other tables say, and the modules that read them. Policy and authority proofs are decided before
-- a batch and tested again in it.
structure Portal (ω Session Policy Authority : Type) where
  identity : Session → String
  role : ω → String → Option Role
  (granted requestable : ω → String → String → Bool)
  currentVersion : ω → String → Option String
  catalogItem : ω → String → Option CatalogItem
  catalogItem_named : ∀ world publicId item, catalogItem world publicId = some item → item.publicId = publicId
  validateAnswers : String → String → Bool → Option String
  requestPolicy : ω → Session → Option String → List Reviewed → Except (List String) Policy
  policyHolds : ω → Policy → List Reviewed → Bool
  assignmentConflict : ω → Policy → List Reviewed → Option (List String)
  requestAuthority : ω → Session → Option String → Option Authority
  authorityHolds : ω → Authority → Bool
  attachmentBlock : ω → Nat → Option (AttachmentBlock × Nat)
  unscanned : ω → Nat → Bool
  squareMeters : String → Rat
  acres : Rat → Rat
  inputFingerprint : Input → String
  draftFingerprint : Loaded → String
  submitFingerprint : Nat → Nat → String

-- How far a call has come: its batch is next, with which proofs; the batch took effect; its result has been read
-- back.
inductive Progress (Policy Authority : Type) where
  | reading
  | writing (policy : Policy) (authority : Authority)
  | written
  | returned
  deriving DecidableEq

structure Db (ω Policy Authority : Type) where
  world : ω
  drafts : List Draft
  services : List ServiceRow
  mutations : List MutationRow
  requests : List RequestRow
  requestServices : List ServiceRow
  progress : Nat → Progress Policy Authority

section
variable {ω Session Policy Authority : Type} (p : Portal ω Session Policy Authority)

def Db.initial (world : ω) : Db ω Policy Authority :=
  { world := world, drafts := [], services := [], mutations := [], requests := [], requestServices := [],
    progress := fun _ => .reading }

def Db.note (db : Db ω Policy Authority) (name : Nat) (progress : Progress Policy Authority) : Db ω Policy Authority :=
  { db with progress := update db.progress name progress }

def Db.draft (db : Db ω Policy Authority) (id : Nat) : Option Draft := find Draft.id db.drafts id

def servicesOf (rows : List ServiceRow) (owner : Nat) : List Selection :=
  ((rows.filter fun row => decide (row.owner = owner)).insertionSort fun left right => left.ordinal ≤ right.ordinal).map ServiceRow.service

-- draftAccess, for an identity that the session join finds.
def accessible (world : ω) (identity : String) (draft : Draft) : Bool :=
  (p.role world identity).any fun role => match draft.projectId with
    | none => decide (role = .manager) || decide (draft.createdBy = identity)
    | some project => p.granted world identity project

def loaded (draft : Draft) (services : List Selection) : Loaded :=
  ⟨draft.id,draft.state,draft.version,draft.fields,draft.areaGeoJson,draft.areaSquareMeters,draft.areaAcres,services, draft.submittedRequestId⟩

-- /^[A-Za-z0-9][A-Za-z0-9_-]{0,127}$/ and, for versions, with '.' and ':'.
def identifier (marks : List Char) (text : List Char) : Bool := match text with
  | [] => false
  | first :: rest => alphanumeric first && repeated 0 127 (fun c => alphanumeric c || among marks c) rest

def publicId (text : String) : Bool := identifier ['_','-'] text.toList
def sourceVersion (text : String) : Bool := identifier ['_','.',':','-'] text.toList

def whitespace (c : Char) : Bool :=
  [9,10,11,12,13,32,160,5760,8232,8233,8239,8287,12288,65279].contains c.toNat || (decide (8192 ≤ c.toNat) && decide (c.toNat ≤ 8202))

def blank (text : String) : Bool := text.toList.all whitespace

-- serviceSnapshot leaves a selection as it is but for its answers, which have their own column.
def numbered (owner : Nat) (services : List Selection) : List ServiceRow :=
  services.zipIdx.map fun entry => ⟨owner,entry.2,entry.1⟩

def reviewed (services : List Selection) : List Reviewed := services.map fun service => ⟨service.item.publicId,service.item.sourceVersion⟩
def Input.reviewed (input : Input) : List Reviewed := input.services.map fun service => ⟨service.publicId,service.sourceVersion⟩

def catalogHolds (world : ω) (services : List Reviewed) : Bool :=
  services.all fun service => decide (p.currentVersion world service.publicId = some service.sourceVersion)

def mayRequest (world : ω) (identity : String) (projectId : Option String) : Bool :=
  (p.role world identity).isSome && projectId.all (p.requestable world identity)

def guards (world : ω) (services : List Reviewed) (policy : Policy) (authority : Authority) : Bool :=
  catalogHolds p world services && p.policyHolds world policy services && p.authorityHolds world authority
end

-- The primary key on the ordinal and the unique service of an owner.
def posted (rows : List ServiceRow) (row : ServiceRow) : Option (List ServiceRow) :=
  if rows.any fun other => decide (other.owner = row.owner) &&
      (decide (other.ordinal = row.ordinal) || decide (other.service.item.publicId = row.service.item.publicId)) then none
  else some (rows++[row])

section
variable {ω Session Policy Authority : Type} (p : Portal ω Session Policy Authority) (name : Nat) (identity : String)

def insertDraft (input : Input) (services : List Selection) (policy : Policy) (authority : Authority) (mutationKey : String) :
    Statement (Db ω Policy Authority) :=
  guarded (fun db _ => mayRequest p db.world identity input.fields.projectId &&
      guards p db.world (reviewed services) policy authority) fun db =>
    if db.drafts.any fun draft => decide (draft.id = name) || decide (draft.createKey = mutationKey) then none
    else some { db with
      drafts := db.drafts++[{
        id := name, projectId := input.fields.projectId, createdBy := identity, state := .draft, version := 1,
        fields := input.fields, areaGeoJson := input.areaGeoJson, areaSquareMeters := input.areaGeoJson.map p.squareMeters,
        areaAcres := (input.areaGeoJson.map p.squareMeters).map p.acres, createKey := mutationKey,
        createFingerprint := p.inputFingerprint input, submittedRequestId := none, submitKey := none,
        submitFingerprint := none, lastMutationKey := mutationKey, author := name }]
      progress := update db.progress name .written }

-- EXISTS (SELECT 1 FROM client_service_request_drafts WHERE id=? AND last_mutation_key=?)
def fenced (id : Nat) (mutationKey : String) (db : Db ω Policy Authority) : Bool :=
  db.drafts.any fun draft => decide (draft.id = id) && decide (draft.lastMutationKey = mutationKey)

def insertDraftService (id : Nat) (mutationKey : String) (row : ServiceRow) : Statement (Db ω Policy Authority) :=
  guarded (fun db _ => fenced id mutationKey db) fun db =>
    (posted db.services row).map fun services => { db with services := services }

def createStatements (input : Input) (services : List Selection) (policy : Policy) (authority : Authority) (mutationKey : String) :
    List (Statement (Db ω Policy Authority)) :=
  insertDraft p name identity input services policy authority mutationKey ::
    (numbered name services).map (insertDraftService name mutationKey)

-- WHERE id=? AND state='draft' AND version=? and the guards.
def applies (id expectedVersion : Nat) (input : Input) (services : List Reviewed) (policy : Policy) (authority : Authority)
    (db : Db ω Policy Authority) : Bool :=
  (db.draft id).any fun draft => decide (draft.state = .draft) && decide (draft.version = expectedVersion) &&
    mayRequest p db.world identity input.fields.projectId && guards p db.world services policy authority

def saved (input : Input) (mutationKey : String) (draft : Draft) : Draft :=
  { draft with
    projectId := input.fields.projectId, fields := input.fields, areaGeoJson := input.areaGeoJson,
    areaSquareMeters := input.areaGeoJson.map p.squareMeters, areaAcres := (input.areaGeoJson.map p.squareMeters).map p.acres,
    version := draft.version+1, lastMutationKey := mutationKey, author := name }

def updateDraft (id expectedVersion : Nat) (input : Input) (services : List Selection) (policy : Policy) (authority : Authority)
    (mutationKey : String) : Statement (Db ω Policy Authority) :=
  guarded (fun db _ => applies p identity id expectedVersion input (reviewed services) policy authority db) fun db =>
    some { db with
      drafts := amend Draft.id db.drafts id (saved p name input mutationKey)
      progress := update db.progress name .written }

def deleteDraftServices (id : Nat) (mutationKey : String) : Statement (Db ω Policy Authority) := fun db _ =>
  if fenced id mutationKey db then
    let kept := db.services.filter fun row => decide (row.owner ≠ id)
    some ({ db with services := kept },db.services.length-kept.length)
  else some (db,0)

def insertMutation (id : Nat) (mutationKey fingerprint : String) : Statement (Db ω Policy Authority) := fun db _ =>
  match db.draft id with
  | some draft =>
    if draft.lastMutationKey = mutationKey then
      if db.mutations.any fun row => decide (row.draftId = id) && decide (row.mutationKey = mutationKey) then none
      else some ({ db with mutations := db.mutations++[⟨id,mutationKey,fingerprint,draft.version,name⟩] },1)
    else some (db,0)
  | none => some (db,0)

def passed : Statement (Db ω Policy Authority) := fun db _ =>
  match db.progress name with
  | .writing _ _ => some (db.note name .reading,0)
  | _ => some (db,0)

def saveStatements (id expectedVersion : Nat) (input : Input) (services : List Selection) (policy : Policy) (authority : Authority)
    (mutationKey : String) : List (Statement (Db ω Policy Authority)) :=
  updateDraft p name identity id expectedVersion input services policy authority mutationKey ::
    deleteDraftServices id mutationKey ::
    ((numbered id services).map (insertDraftService id mutationKey)++ [insertMutation name id mutationKey (p.inputFingerprint input),passed name])

-- WHERE d.id=? AND d.state='draft' AND d.version=? with the access of a submission.
def submittable (world : ω) (draft : Draft) : Bool :=
  (p.role world identity).any fun role => match draft.projectId with
    | none => decide (role = .manager) || decide (draft.createdBy = identity)
    | some project => p.requestable world identity project

-- The first code units of a name; a pair of them is not split.
def leading : Nat → List Char → List Char
  | _, [] => []
  | units, c :: rest =>
    let width := if c.val ≤ 0xFFFF then 1 else 2
    if width ≤ units then c :: leading (units-width) rest else []

def serviceCategory (services : List Selection) : String := match services with
  | [service] => String.ofList (leading 100 service.item.name.toList)
  | _ => "Multiple services ("++toString services.length++")"

def insertRequest (draft : Loaded) (id expectedVersion : Nat) (policy : Policy) (authority : Authority) (mutationKey : String) :
    Statement (Db ω Policy Authority) := fun db _ =>
  match db.draft id with
  | some row =>
    if row.state = .draft ∧ row.version = expectedVersion ∧ submittable p identity db.world row = true ∧
        guards p db.world (reviewed draft.services) policy authority = true then
      if db.requests.any fun request => decide (request.id = name) || decide (request.idempotencyKey = mutationKey) then none
      else some ({ db with
        requests := db.requests++[⟨name,{ draft.fields with projectId := row.projectId },row.createdBy,
          serviceCategory draft.services,draft.areaGeoJson,mutationKey,p.draftFingerprint draft⟩]
        progress := update db.progress name .written },1)
    else some (db,0)
  | none => some (db,0)

def requested (db : Db ω Policy Authority) : Bool := db.requests.any fun request => decide (request.id = name)

def insertRequestService (row : ServiceRow) : Statement (Db ω Policy Authority) :=
  guarded (fun db _ => requested name db) fun db =>
    (posted db.requestServices row).map fun services => { db with requestServices := services }

def retired (id expectedVersion : Nat) (mutationKey : String) (draft : Draft) : Draft :=
  { draft with
    state := .submitted, submittedRequestId := some name, submitKey := some mutationKey,
    submitFingerprint := some (p.submitFingerprint id expectedVersion), lastMutationKey := mutationKey }

-- The trigger on the state aborts while an attachment is not accepted or removed.
def submitDraft (id expectedVersion : Nat) (mutationKey : String) : Statement (Db ω Policy Authority) :=
  guarded (fun db _ => requested name db && (db.draft id).any fun draft =>
      decide (draft.state = .draft) && decide (draft.version = expectedVersion)) fun db =>
    if p.unscanned db.world id then none
    else some { db with drafts := amend Draft.id db.drafts id (retired p name id expectedVersion mutationKey) }

def submitStatements (draft : Loaded) (id expectedVersion : Nat) (policy : Policy) (authority : Authority) (mutationKey : String) :
    List (Statement (Db ω Policy Authority)) :=
  insertRequest p name identity draft id expectedVersion policy authority mutationKey ::
    ((numbered name draft.services).map (insertRequestService name)++[submitDraft p name id expectedVersion mutationKey])
end

abbrev Code (ω Policy Authority : Type) := Program (Db ω Policy Authority) Outcome

section
variable {ω Session Policy Authority : Type} (p : Portal ω Session Policy Authority) (session : Session)

-- `note` is what the call that reads the row is known for.
def loadDraft (note : Db ω Policy Authority → Db ω Policy Authority) (id : Nat) (next : Option Loaded → Code ω Policy Authority) :
    Code ω Policy Authority :=
  .call note (fun first => match (first.draft id).filter (accessible p first.world (p.identity session)) with
    | none => next none
    | some row => .read (.done .threw) fun second => next (some (loaded row (servicesOf second.services id)))) (.done .threw)

def loadSubmittedRequest (note : Db ω Policy Authority → Db ω Policy Authority) (id : Option Nat)
    (next : Option RequestRow → Code ω Policy Authority) : Code ω Policy Authority :=
  .call note (fun db => next (if (p.role db.world (p.identity session)).isSome then
    db.requests.find? fun request => decide (some request.id = id) else none)) (.done .threw)

def resolveRequestPolicy (projectId : Option String) (services : List Reviewed) (changed : List String → Code ω Policy Authority)
    (next : Policy → Code ω Policy Authority) : Code ω Policy Authority :=
  .read (.done .threw) fun db => match p.requestPolicy db.world session projectId services with
    | .error servicePublicIds => changed servicePublicIds
    | .ok policy => next policy

def resolveRequestAuthority (projectId : Option String) (unavailable : Code ω Policy Authority)
    (next : Authority → Code ω Policy Authority) : Code ω Policy Authority :=
  .read (.done .threw) fun db => match p.requestAuthority db.world session projectId with
    | none => unavailable
    | some authority => next authority

def selectEach (next : List Selection → Code ω Policy Authority) :
    List SelectionInput → List Selection → List String → Code ω Policy Authority
  | [], selected, changed => if changed = [] then next selected else .done (.catalogChanged changed)
  | input :: rest, selected, changed =>
    if publicId input.publicId && sourceVersion input.sourceVersion then
      .read (.done .threw) fun db => match p.catalogItem db.world input.publicId with
        | none => selectEach next rest selected (changed++[input.publicId])
        | some item =>
          if item.sourceVersion = input.sourceVersion then
            match p.validateAnswers item.questions input.answers true with
            | none => .done .unavailable
            | some answers => selectEach next rest (selected++[⟨item,answers⟩]) changed
          else selectEach next rest selected (changed++[input.publicId])
    else .done .unavailable

def resolveSelections (input : Input) (next : List Selection → Code ω Policy Authority) : Code ω Policy Authority :=
  if 10 < input.services.length ∨ ¬(input.services.map SelectionInput.publicId).Nodup then .done .unavailable
  else selectEach p next input.services [] []

def changedCatalogServices (failed : Code ω Policy Authority) (next : List String → Code ω Policy Authority) :
    List Reviewed → List String → Code ω Policy Authority
  | [], changed => next changed
  | service :: rest, changed => .read failed fun db =>
    if p.currentVersion db.world service.publicId = some service.sourceVersion then changedCatalogServices failed next rest changed
    else changedCatalogServices failed next rest (changed++[service.publicId])

def refusedWrite (failed : Code ω Policy Authority) (services : List Reviewed) (policy : Policy)
    (catalogChanged assignmentsChanged : List String → Outcome) (otherwise : Outcome) : Code ω Policy Authority :=
  changedCatalogServices p failed (fun changed =>
    if changed ≠ [] then .done (catalogChanged changed)
    else .read failed fun db => .done (match p.assignmentConflict db.world policy services with
      | some servicePublicIds => assignmentsChanged servicePublicIds
      | none => otherwise)) services []
end

section
variable {ω Session Policy Authority : Type} (p : Portal ω Session Policy Authority) (name : Nat) (session : Session)

def replayCreate (existing : Draft) (fingerprint : String) : Code ω Policy Authority :=
  if existing.createFingerprint ≠ fingerprint then .done .conflict
  else loadDraft p session id existing.id fun draft => .done (draft.elim .unavailable .replayed)

-- A batch that raised an error may have lost to another creation under the same key.
def racedCreate (mutationKey fingerprint : String) : Code ω Policy Authority :=
  .read (.done .threw) fun db => match db.drafts.find? fun draft => decide (draft.createKey = mutationKey) with
    | none => .done .unavailable
    | some raced => replayCreate p session raced fingerprint

-- A call's name stands for the UUIDs it draws.
def createServiceRequestDraft (input : Input) (mutationKey : String) : Code ω Policy Authority :=
  .read (.done .threw) fun first => match first.drafts.find? fun draft => decide (draft.createKey = mutationKey) with
    | some existing => replayCreate p session existing (p.inputFingerprint input)
    | none =>
      resolveRequestPolicy p session input.fields.projectId input.reviewed (fun changed => .done (.serviceAssignmentsChanged changed))
        fun policy =>
      resolveRequestAuthority p session input.fields.projectId (.done .unavailable) fun authority =>
      resolveSelections p input fun services =>
      let raced := racedCreate p session mutationKey (p.inputFingerprint input)
      transact (createStatements p name (p.identity session) input services policy authority mutationKey) raced fun counts =>
        if counts.headD 0 = 0 then
          refusedWrite p raced (reviewed services) policy .catalogChanged .serviceAssignmentsChanged .unavailable
        else loadDraft p session (fun db => db.note name .returned) name fun draft => .done (draft.elim .unavailable .created)

def saveServiceRequestDraft (draftId expectedVersion : Nat) (input : Input) (mutationKey : String) : Code ω Policy Authority :=
  loadDraft p session id draftId fun draft =>
    if draft = none then .done .unavailable
    else .read (.done .threw) fun second =>
      match second.mutations.find? fun row => decide (row.draftId = draftId) && decide (row.mutationKey = mutationKey) with
      | some replay =>
        if replay.mutationFingerprint ≠ p.inputFingerprint input then .done .conflict
        else loadDraft p session id draftId fun draft => .done (draft.elim .unavailable .replayed)
      | none =>
        resolveRequestPolicy p session input.fields.projectId input.reviewed (fun changed => .done (.serviceAssignmentsChanged changed))
          fun policy =>
        resolveRequestAuthority p session input.fields.projectId (.done .unavailable) fun authority =>
        resolveSelections p input fun services =>
        .call (fun db => db.note name (.writing policy authority)) (fun _ =>
          transact (saveStatements p name (p.identity session) draftId expectedVersion input services policy authority mutationKey)
            (.done .conflict) fun counts =>
            if counts.headD 0 = 0 then
              refusedWrite p (.done .conflict) (reviewed services) policy .catalogChanged .serviceAssignmentsChanged .conflict
            else loadDraft p session (fun db => db.note name .returned) draftId fun draft =>
              .done (draft.elim .unavailable .updated)) (.done .threw)

def incompleteAnswerServices (services : List Selection) : List String :=
  (services.filter fun service => (p.validateAnswers service.item.questions service.answers false).isNone).map fun service => service.item.publicId

def missingGeometry (draft : Loaded) : List String :=
  (draft.services.filter fun service =>
    decide (service.item.geometryRequirement = .required) && draft.areaGeoJson.isNone).map fun service => service.item.publicId

-- What a draft lacks before anything but itself is looked at.
def lacks (draft : Loaded) : Option Incomplete :=
  if blank draft.fields.title || blank draft.fields.details then some .requestFields
  else if draft.services = [] then some (.answers [])
  else if incompleteAnswerServices p draft.services ≠ [] then some (.answers (incompleteAnswerServices p draft.services))
  else if missingGeometry draft ≠ [] then some (.geometryRequired (missingGeometry draft))
  else none

def replaySubmit (draftId expectedVersion : Nat) (mutationKey : String) : Code ω Policy Authority :=
  .read (.done .threw) fun db => match db.draft draftId with
    | none => .done .conflict
    | some metadata =>
      if metadata.submitKey ≠ some mutationKey ∨ metadata.submitFingerprint ≠ some (p.submitFingerprint draftId expectedVersion) then
        .done .conflict
      else loadSubmittedRequest p session id metadata.submittedRequestId fun request =>
        .done (request.elim .unavailable .replayedRequest)

def submitServiceRequestDraft (draftId expectedVersion : Nat) (mutationKey : String) : Code ω Policy Authority :=
  loadDraft p session id draftId fun found => match found with
    | none => .done .unavailable
    | some draft =>
      if draft.state = .submitted then replaySubmit p session draftId expectedVersion mutationKey
      else if draft.version ≠ expectedVersion then .done .conflict
      else match lacks p draft with
        | some reason => .done (.incomplete reason)
        | none =>
          changedCatalogServices p (.done .threw) (fun changed =>
            if changed ≠ [] then .done (.incomplete (.catalogChanged changed))
            else
              resolveRequestPolicy p session draft.fields.projectId (reviewed draft.services)
                (fun changed => .done (.incomplete (.serviceAssignmentsChanged changed))) fun policy =>
              resolveRequestAuthority p session draft.fields.projectId (.done .conflict) fun authority =>
              .read (.done .threw) fun db => match p.attachmentBlock db.world draftId with
                | some block => .done (.incomplete (.attachments block.1 block.2))
                | none =>
                  transact (submitStatements p name (p.identity session) draft draftId expectedVersion policy authority mutationKey)
                    (.done .conflict) fun counts =>
                    if counts.headD 0 = 0 then
                      refusedWrite p (.done .conflict) (reviewed draft.services) policy
                        (fun changed => .incomplete (.catalogChanged changed))
                        (fun changed => .incomplete (.serviceAssignmentsChanged changed)) .conflict
                    else loadSubmittedRequest p session (fun db => db.note name .returned) (some name) fun request =>
                      .done (request.elim .unavailable .submitted)) (reviewed draft.services) []
end

inductive Change where
  | create (input : Input) (mutationKey : String)
  | save (draftId expectedVersion : Nat) (input : Input) (mutationKey : String)
  | submit (draftId expectedVersion : Nat) (mutationKey : String)

structure Request (Session : Type) where
  session : Session
  change : Change

variable {ω Session Policy Authority : Type} (p : Portal ω Session Policy Authority)

def code (name : Nat) (request : Request Session) : Code ω Policy Authority :=
  match request.change with
  | .create input mutationKey => createServiceRequestDraft p name request.session input mutationKey
  | .save draftId expectedVersion input mutationKey =>
    saveServiceRequestDraft p name request.session draftId expectedVersion input mutationKey
  | .submit draftId expectedVersion mutationKey =>
    submitServiceRequestDraft p name request.session draftId expectedVersion mutationKey

-- No row has a UUID that has just been drawn.
structure Unused (name : Nat) (db : Db ω Policy Authority) : Prop where
  drafts : ∀ draft ∈ db.drafts, draft.id ≠ name
  requests : ∀ request ∈ db.requests, request.id ≠ name
  services : ∀ row ∈ db.services, row.owner ≠ name
  requestServices : ∀ row ∈ db.requestServices, row.owner ≠ name

instance (name : Nat) (db : Db ω Policy Authority) : Decidable (Unused name db) :=
  decidable_of_iff ((∀ draft ∈ db.drafts, draft.id ≠ name) ∧ (∀ request ∈ db.requests, request.id ≠ name) ∧
      (∀ row ∈ db.services, row.owner ≠ name) ∧ ∀ row ∈ db.requestServices, row.owner ≠ name)
    ⟨fun ⟨drafts,requests,services,requestServices⟩ => ⟨drafts,requests,services,requestServices⟩,
      fun unused => ⟨unused.drafts,unused.requests,unused.services,unused.requestServices⟩⟩

def Outside (before after : Db ω Policy Authority) : Prop := ∃ world, after = { before with world := world }

def setting (may : Nat → Request Session → Db ω Policy Authority → Prop) : Setting (Db ω Policy Authority) Nat (Request Session) Outcome where
  code := code p
  enter name _ db := Unused name db ∧ db.progress name = .reading
  may := may
  outside := Outside

instance (may : Nat → Request Session → Db ω Policy Authority → Prop) [DecidableEq Policy] [DecidableEq Authority] (name : Nat)
    (request : Request Session) (db : Db ω Policy Authority) : Decidable ((setting p may).enter name request db) :=
  inferInstanceAs (Decidable (Unused name db ∧ db.progress name = .reading))

instance (may : Nat → Request Session → Db ω Policy Authority → Prop) [∀ name request db, Decidable (may name request db)] (name : Nat)
    (request : Request Session) (db : Db ω Policy Authority) : Decidable ((setting p may).may name request db) :=
  inferInstanceAs (Decidable (may name request db))
end LedgeTopOps.RequestDrafts
