import LedgeTopOps.ProjectOverlay

namespace LedgeTopOps.ProjectOverlay

-- The recovery of an overlay whose project was reassigned: what a plan reads, when it is
-- refused, and the batch of its commit.
def Attachment.foreign (root : Root) (row : Attachment) : Bool := row.root ≠ root
def Db.foreign (db : Db) (root : Root) : List Attachment := db.attachments.filter (·.foreign root)
def Db.foreignReceipts (db : Db) (root : Root) : List Key := db.attachmentReceipts.filter (· ∈ (db.foreign root).map (·.intent))

def RootKind.text : RootKind → String
  | .organization => "organization"
  | .client => "client"

-- ORDER BY root_record_kind,root_id
def Root.before (a b : Root) : Bool := a.kind.text < b.kind.text || (a.kind.text = b.kind.text && a.id ≤ b.id)

structure Reads where
  contacts : Option ContactSet
  memory : Option Memory
  (contactCount memoryRevisionCount : Nat)
  excludedRoots : List Root
  (excludedAttachmentCount excludedAttachmentEventCount excludedAttachmentMutationCount : Nat)
  latest : Option Recovery

-- The receipt of the greatest sequence; receipts stand newest first.
def Db.latest (db : Db) : Option Recovery := db.recoveries.head?

def Db.reads (db : Db) (root : Root) : Reads where
  contacts := db.contactSet
  memory := db.memory
  contactCount := db.assignments.length
  memoryRevisionCount := db.revisions.length
  excludedRoots := ((((db.foreign root).map (·.root)).dedup).mergeSort Root.before).take 2
  excludedAttachmentCount := (db.foreign root).length
  excludedAttachmentEventCount := (db.foreign root).length
  excludedAttachmentMutationCount := (db.foreignReceipts root).length
  latest := db.latest

inductive Refusal where
  | storedState | notRequired | ownersDiffer | mixedOwners

def Refusal.status : Refusal → Nat
  | .notRequired => 409
  | .storedState | .ownersDiffer | .mixedOwners => 503

def Refusal.message : Refusal → String
  | .storedState => "Stored operational recovery state requires administrative review"
  | .notRequired => "Project operational recovery is not required"
  | .ownersDiffer => "Stored operational roots require administrative review before recovery"
  | .mixedOwners => "Mixed current and reassigned operational records require administrative review"

structure Fingerprint where
  action : Action
  reason : String
  sync : Nat
  (newRoot oldRoot : Root)
  (contactsVersion memoryVersion contactCount memoryRevisionCount excludedAttachmentCount excludedAttachmentEventCount : Nat)
  (excludedAttachmentMutationCount recoverySequence : Nat)
  deriving DecidableEq

structure Plan where
  action : Action
  reason : String
  sync : Nat
  (newRoot oldRoot : Root)
  reads : Reads

def Plan.contactsBefore (plan : Plan) : Nat := (plan.reads.contacts.map (·.version)).getD 0
def Plan.memoryBefore (plan : Plan) : Nat := (plan.reads.memory.map (·.version)).getD 0
def Plan.lastSequence (plan : Plan) : Nat := (plan.reads.latest.map (·.sequence)).getD 0

def Plan.fingerprint (plan : Plan) : Fingerprint :=
  ⟨plan.action,plan.reason,plan.sync,plan.newRoot,plan.oldRoot,plan.contactsBefore,plan.memoryBefore,plan.reads.contactCount,
    plan.reads.memoryRevisionCount,plan.reads.excludedAttachmentCount,plan.reads.excludedAttachmentEventCount,
    plan.reads.excludedAttachmentMutationCount,plan.lastSequence⟩

def Reads.live (reads : Reads) : List Root := reads.contacts.toList.map (·.root)++reads.memory.toList.map (·.root)
def Reads.liveMismatched (reads : Reads) (root : Root) : List Root := reads.live.filter (· ≠ root)

def Reads.fallback (reads : Reads) : List Root := match reads.latest with
  | some receipt => [receipt.newRoot]
  | none => reads.excludedRoots

def Reads.mismatched (reads : Reads) (root : Root) : List Root :=
  if reads.liveMismatched root = [] then reads.fallback.filter (· ≠ root) else reads.liveMismatched root

-- `root` and `sync` are those of the project when the plan was prepared.
def buildPlan (root : Root) (sync : Nat) (action : Action) (reason : String) (reads : Reads) : Except Refusal Plan :=
  if 100 < reads.contactCount then .error .storedState
  else if reads.liveMismatched root = [] ∧ (reads.latest.any (·.newRoot = root) ∨ reads.excludedAttachmentCount = 0) then .error .notRequired
  else match reads.mismatched root with
    | [] => .error .ownersDiffer
    | old :: _ =>
      if (reads.liveMismatched root).any (· ≠ old) ∨
          (reads.liveMismatched root = [] ∧ reads.latest.isNone ∧ (reads.mismatched root).any (· ≠ old)) then .error .ownersDiffer
      else if reads.contacts.any (·.root = root) ∨ reads.memory.any (·.root = root) then .error .mixedOwners
      else .ok ⟨action,reason,sync,root,old,reads⟩

structure Recover where
  root : Root
  action : Action
  reason : String
  key : Key
  preview : Fingerprint
  allowed : Bool

def Plan.contactsFit (plan : Plan) (db : Db) : Bool := match plan.reads.contacts with
  | some set => db.contactSet = some ⟨plan.oldRoot,set.version⟩ && db.assignments.length = plan.reads.contactCount &&
      set.version + 1 ∉ db.contactRevisions.map (·.version)
  | none => plan.reads.contactCount = 0

def Plan.archived (plan : Plan) (db : Db) : List MemoryRevision :=
  if plan.action = .reset ∧ plan.reads.memory.isSome ∧ plan.reads.memoryRevisionCount ≠ 0 then
    db.revisions.filter fun row => row.version ≤ plan.memoryBefore
  else []

def Plan.kept (plan : Plan) (db : Db) : List MemoryRevision :=
  if plan.action = .reset ∧ plan.reads.memory.isSome ∧ plan.reads.memoryRevisionCount ≠ 0 then
    db.revisions.filter fun row => plan.memoryBefore < row.version
  else db.revisions

def Plan.memoryFits (plan : Plan) (db : Db) : Bool := match plan.reads.memory with
  | some memory => (db.memory.any fun m => m.version = memory.version && m.root = plan.oldRoot) &&
      memory.version + 1 ∉ (plan.kept db).map (·.version) &&
      (plan.action = .transfer || (plan.archived db).length = plan.reads.memoryRevisionCount) &&
      ((plan.archived db).all fun row => row.version ∉ db.archive.map (·.version))
  | none => plan.action = .transfer || plan.reads.memoryRevisionCount = 0

def Plan.attachmentsFit (plan : Plan) (db : Db) : Bool :=
  if plan.reads.excludedAttachmentCount = 0 then
    plan.reads.excludedAttachmentEventCount = 0 && plan.reads.excludedAttachmentMutationCount = 0
  else (db.foreign plan.newRoot).length = plan.reads.excludedAttachmentCount &&
    (db.foreign plan.newRoot).length = plan.reads.excludedAttachmentEventCount &&
    (db.foreignReceipts plan.newRoot).length = plan.reads.excludedAttachmentMutationCount &&
    (db.foreign plan.newRoot).all fun row => row.intent ∉ db.attachmentArchive.map (·.intent)

def Plan.clearContacts (plan : Plan) (db : Db) : Db := match plan.reads.contacts with
  | some set => { db with
      contactSet := some ⟨plan.newRoot,set.version + 1⟩
      assignments := []
      contactRevisions := db.contactRevisions++[⟨set.version + 1,[]⟩] }
  | none => db

def Plan.snapshot (plan : Plan) (memory : Memory) : Snapshot := match plan.action with
  | .transfer => memory.snapshot
  | .reset => emptyMemory

def Plan.takeMemory (plan : Plan) (db : Db) : Db := match plan.reads.memory with
  | some memory => { db with
      memory := some ⟨plan.newRoot,memory.version + 1,plan.snapshot memory⟩
      revisions := plan.kept db++[⟨memory.version + 1,.saved,plan.snapshot memory,none,plan.newRoot⟩]
      archive := db.archive++plan.archived db }
  | none => db

def Plan.excludeAttachments (plan : Plan) (db : Db) : Db :=
  if plan.reads.excludedAttachmentCount = 0 then db
  else { db with
    attachments := db.attachments.filter fun row => !row.foreign plan.newRoot
    attachmentArchive := db.attachmentArchive++db.foreign plan.newRoot
    attachmentReceipts := db.attachmentReceipts.filter fun key => key ∉ (db.foreign plan.newRoot).map (·.intent) }

def Plan.receipt (plan : Plan) (key : Key) : Recovery where
  key := key
  sequence := plan.lastSequence + 1
  action := plan.action
  oldRoot := plan.oldRoot
  newRoot := plan.newRoot
  contactsVisibleFrom := if plan.reads.contacts.isSome then plan.contactsBefore + 1 else (plan.reads.latest.map (·.contactsVisibleFrom)).getD 1
  memoryVisibleFrom := if plan.action = .reset ∧ plan.reads.memory.isSome then plan.memoryBefore + 1
    else (plan.reads.latest.map (·.memoryVisibleFrom)).getD 1

-- The fence is live while the project belongs to the new root under the synchronisation read.
def Plan.batch (plan : Plan) (key : Key) (db : Db) : Option Db :=
  if db.project.root = plan.newRoot ∧ db.project.sync = plan.sync ∧ plan.contactsFit db ∧ plan.memoryFits db ∧ plan.attachmentsFit db ∧
      key ∉ db.recoveries.map (·.key) ∧ plan.lastSequence + 1 ∉ db.recoveries.map (·.sequence) then
    let after := plan.excludeAttachments (plan.takeMemory (plan.clearContacts db))
    some { after with recoveries := plan.receipt key :: after.recoveries }
  else none

-- assertOverlayRoot of both records: what the workspace answers for the project's own root.
def Db.recoveryRequired (db : Db) : Bool := db.contactSet.any (·.root ≠ db.project.root) || db.memory.any (·.root ≠ db.project.root)

inductive Call where
  | saveContacts (r : ContactsSave)
  | saveMemory (r : MemorySave)
  | upload (r : Upload)
  | copy (r : Copy)
  | recover (r : Recover)
  | move (project : Project)

def Db.destination (db : Db) : Destination := ⟨db.contactSet,db.memory,db.assignments⟩

-- A call that runs whole; one that is refused or whose batch fails leaves the rows alone.
def Call.perform (runtime : Runtime) (db : Db) : Call → Option Db
  | .saveContacts r => if r.allowed ∧ db.project.root = r.root ∧ r.key ∉ db.mutations ∧ db.contactSet.all (·.root = r.root) ∧
      db.contactsVersion = r.expected then r.batch db.project db.assignments db else none
  | .saveMemory r => if r.allowed ∧ db.project.root = r.root ∧ r.key ∉ db.mutations ∧ reasonFits db.project r.amendmentReason ∧
      db.memory.all (·.root = r.root) ∧ db.memoryVersion = r.expected then r.batch db.project db else none
  | .upload r => if r.allowed ∧ db.project.root = r.root ∧ r.key ∉ db.attachmentReceipts ∧ reasonFits db.project r.amendmentReason ∧
      db.memory.all (·.root = r.root) ∧ db.memoryVersion = r.expected then
        r.batch db.project (changeKindOf db.project) ((db.memory.map (·.snapshot)).getD emptyMemory) db else none
  | .copy r => if r.allowed ∧ db.project.root = r.root ∧ r.key ∉ db.copies ∧ db.project.status.copyable ∧ r.accepts db.destination then
      r.batch runtime db.project db.destination db else none
  | .recover r => if r.allowed ∧ db.project.root = r.root ∧ r.key ∉ db.recoveries.map (·.key) then
      match buildPlan r.root db.project.sync r.action r.reason (db.reads r.root) with
      | .ok plan => if plan.fingerprint = r.preview then plan.batch r.key db else none
      | .error _ => none
    else none
  | .move project => some { db with project := project }

def Db.after (runtime : Runtime) (db : Db) (call : Call) : Db := (call.perform runtime db).getD db

def Db.recoverable (db : Db) : Prop := db.recoveryRequired = true → ∀ (action : Action) (reason : String),
  ∃ plan, buildPlan db.project.root db.project.sync action reason (db.reads db.project.root) = .ok plan
end LedgeTopOps.ProjectOverlay
