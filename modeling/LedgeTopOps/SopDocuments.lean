import LedgeTopOps.KeyedRows
import LedgeTopOps.SqlBatches

namespace LedgeTopOps.SopDocuments
open SqlBatches KeyedRows

-- The SOP library: documents with draft and published pointers, revisions, and the create, draft, publish, archive
-- and restore routes, call by call.
abbrev Id := Nat

structure Input where
  (title purpose markdown : String)
  deriving DecidableEq

structure Rendered where
  (html toc : String)
  sanitizer : Nat

structure Content where
  input : Input
  rendered : Rendered

structure Principal where
  (name email displayName : String)
  deriving DecidableEq

inductive ChangeKind where
  | created | draftSaved | published | archived | restored

structure Revision where
  (id sop : Id)
  number : Nat
  parent : Option Id
  kind : ChangeKind
  content : Content
  author : Principal

inductive Status where
  | draft | published | archived
  deriving DecidableEq

structure Document where
  id : Id
  slug : String
  status : Status
  version : Nat
  (draft published : Option Id)
  (createdBy updatedBy : String)
  deriving DecidableEq

structure Audit where
  action : ChangeKind
  sop : Id
  actor : Principal
  expected : Nat

structure Db where
  documents : List Document
  revisions : List Revision
  audits : List Audit

def Db.document (db : Db) (sop : Id) : Option Document := db.documents.find? (·.id = sop)
def Db.revision (db : Db) (id : Id) : Option Revision := db.revisions.find? (·.id = id)
def Db.holds (db : Db) (id sop : Id) : Bool := db.revisions.any fun row => row.id = id && row.sop = sop

-- FROM sop_documents d WHERE d.id=? AND d.version=?
def Db.current (db : Db) (sop : Id) (expected : Nat) : Option Document := db.documents.find? fun d => d.id = sop && d.version = expected
def Db.numbers (db : Db) (sop : Id) : List Nat := (db.revisions.filter (·.sop = sop)).map (·.number)

-- COALESCE(MAX(revision_number),0)+1
def Db.nextNumber (db : Db) (sop : Id) : Nat := (db.numbers sop).foldr max 0 + 1

def Db.accepts (db : Db) (row : Revision) : Bool :=
  (db.revision row.id).isNone && row.number ∉ db.numbers row.sop && (db.document row.sop).isSome && row.parent.all fun parent => (db.revision parent).isSome

def Db.pointed (db : Db) (d : Document) : Bool :=
  d.draft.all (db.holds · d.id) && d.published.all (db.holds · d.id) &&
    (d.status ≠ .draft || d.draft.isSome) && (d.status ≠ .published || d.published.isSome)

def insertRevision (select : Db → Option Revision) : Statement Db := fun db _ => match select db with
  | none => some (db,0)
  | some row => if db.accepts row then some ({ db with revisions := db.revisions++[row] },1) else none

-- UPDATE ... WHERE id=? AND version=? AND EXISTS (SELECT 1 FROM sop_revisions WHERE id=? AND sop_id=?)
def updateDocument (sop : Id) (expected : Nat) (revision : Id) (change : Document → Document) : Statement Db := fun db _ =>
  match db.current sop expected with
  | some d => if db.holds revision sop then
      if db.pointed (change d) then some ({ db with documents := amend Document.id db.documents sop change },1) else none
    else some (db,0)
  | none => some (db,0)

def insertAudit (condition : Db → Bool) (row : Audit) : Statement Db :=
  guarded (fun db _ => condition db) fun db => some { db with audits := db.audits++[row] }

inductive Change where
  | draft (input : Input)
  | publish
  | archive
  | restore (revision : Id)
  deriving DecidableEq

structure Mutation where
  sop : Id
  expected : Nat
  principal : Principal
  change : Change
  deriving DecidableEq

-- What the batch of one mutation is made of; `uuid` is the revision it writes.
structure Plan where
  select : Db → Option Revision
  change : Document → Document
  noted : Db → Bool
  action : ChangeKind

def Plan.statements (plan : Plan) (m : Mutation) (uuid : Id) : List (Statement Db) :=
  [insertRevision plan.select,updateDocument m.sop m.expected uuid plan.change, insertAudit plan.noted ⟨plan.action,m.sop,m.principal,m.expected⟩]

def Document.revised (d : Document) (principal : Principal) (status : Status) (draft published : Option Id) : Document :=
  { d with status := status, draft := draft, published := published, version := d.version + 1, updatedBy := principal.name }

-- EXISTS (SELECT 1 FROM sop_documents WHERE id=? AND version=? AND draft_revision_id=?)
def drafted (m : Mutation) (uuid : Id) (db : Db) : Bool := (db.current m.sop (m.expected + 1)).any (·.draft = some uuid)

section
variable (render : String → Rendered) (m : Mutation) (uuid : Id) (read : Document)

def Input.content (input : Input) : Content := ⟨input,render input.markdown⟩

def draftPlan (input : Input) : Plan where
  select db := (db.current m.sop m.expected).map fun d =>
    ⟨uuid,d.id,db.nextNumber d.id,read.draft <|> read.published,.draftSaved,input.content render,m.principal⟩
  change d := d.revised m.principal d.status (some uuid) d.published
  noted := drafted m uuid
  action := .draftSaved

def publishPlan : Plan where
  select db := (db.current m.sop m.expected).bind fun d => (d.draft.bind db.revision).map fun r =>
    ⟨uuid,r.sop,db.nextNumber r.sop,some r.id,.published,r.content,m.principal⟩
  change d := d.revised m.principal .published none (some uuid)
  noted db := (db.current m.sop (m.expected + 1)).any (·.published = some uuid)
  action := .published

def copied (kind : ChangeKind) (source : Id) (db : Db) : Option Revision :=
  (db.current m.sop m.expected).bind fun d => ((db.revision source).filter (·.sop = d.id)).map fun r =>
    ⟨uuid,r.sop,db.nextNumber r.sop,some r.id,kind,r.content,m.principal⟩

def archivePlan (source : Id) : Plan where
  select := copied m uuid .archived source
  change d := d.revised m.principal .archived none d.published
  noted db := (db.current m.sop (m.expected + 1)).any (·.status = .archived) && db.holds uuid m.sop
  action := .archived

def restorePlan (source : Id) : Plan where
  select := copied m uuid .restored source
  change d := d.revised m.principal (if read.status = .published then .published else .draft) (some uuid) d.published
  noted := drafted m uuid
  action := .restored

-- The batch that a route builds from the document it read; none where it throws first.
def Mutation.plan : Option Plan := match m.change with
  | .draft input => some (draftPlan render m uuid read input)
  | .publish => some (publishPlan m uuid)
  | .archive => (read.draft <|> read.published).map (archivePlan m uuid)
  | .restore source => some (restorePlan m uuid read source)
end

structure Creation where
  slug : String
  input : Input
  principal : Principal
  deriving DecidableEq

section
variable (render : String → Rendered) (c : Creation) (uuid : Id)

def Creation.document : Document := ⟨uuid,c.slug,.draft,1,none,none,c.principal.name,c.principal.name⟩
def Creation.revision : Revision := ⟨uuid,uuid,1,none,.created,c.input.content render,c.principal⟩

def insertDocument : Statement Db := fun db _ =>
  if db.documents.any fun d => d.id = uuid || d.slug = c.slug then none
  else some ({ db with documents := db.documents++[c.document uuid] },1)

-- UPDATE sop_documents SET draft_revision_id=? WHERE id=?
def pointDraft : Statement Db := fun db _ =>
  if (db.document uuid).all fun d => db.pointed { d with draft := some uuid } then
    some ({ db with documents := amend Document.id db.documents uuid fun d => { d with draft := some uuid } },1)
  else none

def Creation.statements : List (Statement Db) :=
  [insertDocument c uuid,insertRevision fun _ => some (c.revision render uuid),pointDraft uuid, insertAudit (fun _ => true) ⟨.created,uuid,c.principal,0⟩]
end

inductive Outcome where
  | won | conflict | refused | threw
  deriving DecidableEq

inductive Pc where
  | slugRead (c : Creation)
  | create (c : Creation)
  | documentRead (m : Mutation)
  | revisionRead (m : Mutation) (read : Document) (source : Id)
  | write (m : Mutation) (read : Document)
  | ended (outcome : Outcome)
  deriving DecidableEq

def Mutation.checked (m : Mutation) (read : Document) : Pc := match m.change with
  | .draft _ => if read.status = .archived then .ended .refused else .write m read
  | .publish => if read.draft.isNone then .ended .refused else .write m read
  | .archive => if read.status = .archived then .ended .refused
      else if (read.draft <|> read.published).isNone then .ended .threw else .write m read
  | .restore source => .revisionRead m read source

section
variable (render : String → Rendered)

def Pc.call (db : Db) (uuid : Id) : Pc → Db × Pc
  | .slugRead c => (db,if db.documents.any (·.slug = c.slug) then .ended .refused else .create c)
  | .create c => match batch (c.statements render uuid) db 0 with
    | some (after,_) => (after,.ended .won)
    | none => (db,.ended .threw)
  | .documentRead m => (db,match db.document m.sop with
    | some read => m.checked read
    | none => .ended .refused)
  | .revisionRead m read source => (db,match db.revision source with
    | some row => if row.sop = m.sop then .write m read else .ended .refused
    | none => .ended .refused)
  | .write m read => match m.plan render uuid read with
    | none => (db,.ended .threw)
    | some plan => match batch (plan.statements m uuid) db 0 with
      | some (after,counts) => (after,.ended (if counts[1]? = some 0 then .conflict else .won))
      | none => (db,.ended .threw)
  | .ended outcome => (db,.ended outcome)
end

-- `seen`: the versions that reads and mutations have returned; `succeeded`: the versions the
-- mutations that won had expected.
structure State where
  db : Db
  flows : List Pc
  (seen succeeded : List (Id × Nat))

inductive Action where
  | create (c : Creation)
  | mutate (m : Mutation)
  | view (sop : Id)
  | step (flow : Nat)

def Pc.expecting : Pc → List (Id × Nat)
  | .write m _ => [(m.sop,m.expected)]
  | _ => []

-- A mutation carries a version returned before; the route's last read returns one like any other view.
def next (render : String → Rendered) (s : State) : Action → Option State
  | .create c => some { s with flows := s.flows++[.slugRead c] }
  | .mutate m => if (m.sop,m.expected) ∈ s.seen then some { s with flows := s.flows++[.documentRead m] } else none
  | .view sop => (s.db.document sop).map fun d => { s with seen := (sop,d.version) :: s.seen }
  | .step flow => (s.flows[flow]?).map fun pc =>
      let done := pc.call render s.db flow
      { s with
        db := done.1
        flows := s.flows.set flow done.2
        succeeded := (if done.2 = .ended .won then pc.expecting else [])++s.succeeded }
end LedgeTopOps.SopDocuments
