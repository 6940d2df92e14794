import LedgeTopOps.KeyedRows
import LedgeTopOps.StepRuns

namespace LedgeTopOps.StorageLifecycle
open KeyedRows StepRuns

inductive EntityType where
  | dataset | output
  deriving DecidableEq

inductive Status where
  | draft | finalized | archived | ready | published | failed | trashed | other
  deriving DecidableEq

inductive MutationType where
  | trash | restore | purge
  deriving DecidableEq

inductive MutationStatus where
  | intent | fsApplied | complete | failed
  deriving DecidableEq

-- A root key with a relative path: the entity's home, the path that one trash id
-- names under the trash root, or the empty path.
inductive Place where
  | home
  | trash (id : Nat)
  | blank
  deriving DecidableEq

-- What a path holds: the entity's own tree, whole or partly deleted, or a directory
-- that another process made.
inductive Node where
  | content (whole : Bool)
  | unrelated (empty : Bool)

structure Mutation where
  id : Nat
  type : MutationType
  trashId : Nat
  (source destination : Place)
  originalStatus : Option Status
  allowAbsentSource : Bool
  status : MutationStatus
  deriving DecidableEq

structure TrashItem where
  id : Nat
  relativePath : Place
  originalStatus : Status
  permanentlyDeleted : Bool

-- One managed dataset or model output: its row, its rows of the journal and of the
-- trash, and its directories.
structure Entity where
  entityType : EntityType
  fileCount : Nat
  status : Status
  home : Option Node
  bin : Nat → Option Node
  mutations : List Mutation
  trash : List TrashItem
  issued : Nat

def Entity.at (e : Entity) : Place → Option Node
  | .home => e.home
  | .trash id => e.bin id
  | .blank => none

def Entity.put (e : Entity) (place : Place) (node : Option Node) : Entity :=
  match place with
  | .home => { e with home := node }
  | .trash id => { e with bin := Function.update e.bin id node }
  | .blank => e

def Mutation.active (m : Mutation) : Bool := decide (m.status = .intent) || decide (m.status = .fsApplied)
def Entity.existing (e : Entity) : Option Mutation := e.mutations.find? Mutation.active
def Entity.getStorageMutation (e : Entity) (id : Nat) : Option Mutation := find Mutation.id e.mutations id
def Entity.getTrash (e : Entity) (id : Nat) : Option TrashItem := find TrashItem.id e.trash id

def Entity.amend (e : Entity) (id : Nat) (change : Mutation → Mutation) : Entity :=
  { e with mutations := KeyedRows.amend Mutation.id e.mutations id change }

def Entity.insert (e : Entity) (type : MutationType) (trashId : Nat) (source destination : Place)
    (originalStatus : Option Status) (allowAbsentSource : Bool) : Entity :=
  { e with
    mutations := e.mutations++[⟨e.issued,type,trashId,source,destination,originalStatus,allowAbsentSource,.intent⟩]
    issued := e.issued+2 }

-- Whether anything refers to the dataset or works on it is not in these tables.
def beginTrashMutation (unreferenced : Bool) (e : Entity) : Entity :=
  match e.existing with
  | some _ => e
  | none =>
    if e.entityType = .dataset ∧ e.status ≠ .trashed ∧ unreferenced then
      e.insert .trash (e.issued+1) .home (.trash (e.issued+1)) (some e.status)
        (decide (e.status = .draft) && decide (e.fileCount = 0))
    else e

-- archiveInactiveReady first archives a ready output that nothing has published.
def archived (archiveInactiveReady unpublished : Bool) (e : Entity) : Option Entity :=
  if archiveInactiveReady ∧ e.status = .ready then
    if unpublished then some { e with status := .archived } else none
  else some e

def beginOutputTrashMutation (unused : Bool) (originalStatus : Status) (archiveInactiveReady unpublished : Bool)
    (e : Entity) : Entity :=
  match e.existing with
  | some _ => e
  | none =>
    if e.entityType = .output ∧ unused then
      match archived archiveInactiveReady unpublished e with
      | none => e
      | some e =>
        if e.status = .archived then
          e.insert .trash (e.issued+1) .home (.trash (e.issued+1))
            (some (if originalStatus ∈ [.ready,.published,.failed,.archived] then originalStatus else .archived)) false
        else e
    else e

def beginRestoreMutation (trashId : Nat) (idle : Bool) (e : Entity) : Entity :=
  match e.getTrash trashId with
  | none => e
  | some item =>
    if item.permanentlyDeleted then e else
    match e.existing with
    | some _ => e
    | none =>
      if e.status = .trashed ∧ (e.entityType = .dataset → idle) then
        e.insert .restore trashId item.relativePath .home none
          (decide (e.entityType = .dataset) && decide (item.relativePath = .blank))
      else e

def beginPurgeMutation (trashId : Nat) (idle : Bool) (e : Entity) : Entity :=
  match e.getTrash trashId with
  | none => e
  | some item =>
    if item.permanentlyDeleted then e else
    match e.existing with
    | some _ => e
    | none =>
      if e.status = .trashed ∧ (e.entityType = .dataset → idle) then
        e.insert .purge trashId item.relativePath .blank none false
      else e

def Mutation.reopened (m : Mutation) : Mutation := { m with status := .intent }

def Mutation.applied (destination : Place) (m : Mutation) : Mutation :=
  if m.active then { m with status := .fsApplied, destination := destination } else m

def Mutation.failed (m : Mutation) : Mutation := if m.active then { m with status := .failed } else m
def Mutation.completed (m : Mutation) : Mutation := if m.status = .fsApplied then { m with status := .complete } else m

def retryStorageMutation (id : Nat) (e : Entity) : Entity :=
  match e.getStorageMutation id,e.existing with
  | some m,none => if m.status = .failed then e.amend id Mutation.reopened else e
  | _,_ => e

def markStorageMutationFsApplied (id : Nat) (destination : Place) (e : Entity) : Entity :=
  e.amend id (Mutation.applied destination)

def failStorageMutation (id : Nat) (e : Entity) : Entity := e.amend id Mutation.failed

-- INSERT OR IGNORE, under the primary key and the unique index on active trash rows.
def Entity.insertTrash (e : Entity) (item : TrashItem) : Entity :=
  if e.trash.any (fun other => decide (other.id = item.id) || !other.permanentlyDeleted) then e
  else { e with trash := e.trash++[item] }

def Entity.deleteTrash (e : Entity) (id : Nat) : Entity :=
  { e with trash := KeyedRows.amend TrashItem.id e.trash id fun item => { item with permanentlyDeleted := true } }

def restoredStatus (e : Entity) (item : Option TrashItem) : Status :=
  match e.entityType,item.map TrashItem.originalStatus with
  | .dataset,some .draft => .draft
  | .dataset,some .finalized => .finalized
  | .output,some .published => .ready
  | .output,some .ready => .ready
  | .output,some .failed => .failed
  | _,_ => .archived

def completed (m : Mutation) (e : Entity) : Entity :=
  match m.type with
  | .trash =>
    match e.entityType with
    | .dataset => { e with status := .trashed }.insertTrash ⟨m.trashId,m.destination,m.originalStatus.getD e.status,false⟩
    | .output => { e with status := if e.status = Status.archived then Status.trashed else e.status }.insertTrash
        ⟨m.trashId,m.destination,m.originalStatus.getD .archived,false⟩
  | .restore =>
    { e with status := if e.status = Status.trashed then restoredStatus e (e.getTrash m.trashId) else e.status }.deleteTrash m.trashId
  | .purge => e.deleteTrash m.trashId

def completeStorageMutation (id : Nat) (e : Entity) : Entity :=
  match e.getStorageMutation id with
  | none => e
  | some m =>
    if m.status = .fsApplied then
      (completed m e).amend id Mutation.completed
    else e

-- Where an application of a mutation has got to: the next statement or filesystem
-- call it makes, with what it has read so far.
inductive Phase where
  | read
  | source (m : Mutation)
  | destination (m : Mutation) (sourceExists : Bool)
  | move (m : Mutation)
  | rename (m : Mutation)
  | remaining (m : Mutation)
  | remove (m : Mutation)
  | mark (m : Mutation) (destination : Place)
  | reread
  | verifySource (m : Mutation)
  | verifyDestination (m : Mutation) (sourceExists : Bool)
  | verifyRemoved (m : Mutation)
  | complete
  | fail

-- A call may raise an error that leaves the journal alone. moveExact may find two
-- filesystems, and a removal may stop half way.
inductive Outcome where
  | done | raised | crossDevice | partly
  deriving DecidableEq

def existsAt (e : Entity) (place : Place) : Bool := (e.at place).isSome

def read (id : Nat) (e : Entity) : Option Phase :=
  match e.getStorageMutation id with
  | none => none
  | some m => match m.status,m.type with
    | .complete,_ | .failed,_ => none
    | .intent,.purge => some (.remaining m)
    | .intent,_ => some (.source m)
    | .fsApplied,_ => some .reread

def decided (m : Mutation) (sourceExists destinationExists : Bool) : Phase :=
  match sourceExists,destinationExists with
  | true,true => .fail
  | true,false => .move m
  | false,true => .mark m m.destination
  | false,false => if m.allowAbsentSource then .mark m .blank else .fail

-- renameSync replaces an empty directory and refuses any other.
def renamed (m : Mutation) (e : Entity) : Option Entity :=
  match e.at m.source,e.at m.destination with
  | some node,none | some node,some (.unrelated true) => some ((e.put m.destination (some node)).put m.source none)
  | _,_ => none

def marked (id : Nat) (e : Entity) : Phase :=
  match e.getStorageMutation id with
  | some m => if m.status = .failed then .fail else .reread
  | none => .fail

def reread (id : Nat) (e : Entity) : Phase :=
  match e.getStorageMutation id with
  | some m => if m.status = .fsApplied then if m.type = .purge then .verifyRemoved m else .verifySource m else .complete
  | none => .complete

-- One statement or filesystem call of applyStorageMutation.
def advance (id : Nat) (e : Entity) : Phase → Outcome → Entity × Option Phase
  | .remove m,.partly => (match e.at m.source with
      | some (.content _) => e.put m.source (some (.content false))
      | _ => e,none)
  | _,.raised | _,.partly => (e,none)
  | .read,_ => (e,read id e)
  | .source m,_ => (e,some (.destination m (existsAt e m.source)))
  | .destination m sourceExists,_ => (e,some (decided m sourceExists (existsAt e m.destination)))
  | .move m,outcome =>
    if existsAt e m.source then
      if existsAt e m.destination ∨ outcome = .crossDevice then (e,some .fail) else (e,some (.rename m))
    else (e,none)
  | .rename m,_ => match renamed m e with
    | some e => (e,some (.mark m m.destination))
    | none => (e,none)
  | .remaining m,_ => (e,some (if existsAt e m.source then .remove m else .mark m m.destination))
  | .remove m,_ => (e.put m.source none,some (.mark m m.destination))
  | .mark _ destination,_ => (markStorageMutationFsApplied id destination e,some (marked id e))
  | .reread,_ => (e,some (reread id e))
  | .verifySource m,_ => (e,some (.verifyDestination m (existsAt e m.source)))
  | .verifyDestination m sourceExists,_ =>
    (e,some (if sourceExists ∨ (existsAt e m.destination = false ∧ m.allowAbsentSource = false) then .fail else .complete))
  | .verifyRemoved m,_ => (e,some (if existsAt e m.source then .fail else .complete))
  | .complete,_ => (completeStorageMutation id e,none)
  | .fail,_ => (failStorageMutation id e,none)

structure Run where
  id : Nat
  phase : Phase

structure Process where
  entity : Entity
  running : Option Run

-- reconcileStorageMutations applies the pending mutations in turn. The last two events are a crash, and another
-- process making a directory.
inductive Event where
  | beginTrash (unreferenced : Bool)
  | beginOutputTrash (unused : Bool) (originalStatus : Status) (archiveInactiveReady unpublished : Bool)
  | beginRestore (trashId : Nat) (idle : Bool)
  | beginPurge (trashId : Nat) (idle : Bool)
  | retry (id : Nat)
  | apply (id : Nat)
  | advance (outcome : Outcome)
  | crash
  | create (empty : Bool)

def Process.idle (p : Process) (change : Entity → Entity) : Process :=
  match p.running with
  | none => { p with entity := change p.entity }
  | some _ => p

def step (p : Process) : Event → Process
  | .beginTrash unreferenced => p.idle (beginTrashMutation unreferenced)
  | .beginOutputTrash unused originalStatus archiveInactiveReady unpublished =>
    p.idle (beginOutputTrashMutation unused originalStatus archiveInactiveReady unpublished)
  | .beginRestore trashId idle => p.idle (beginRestoreMutation trashId idle)
  | .beginPurge trashId idle => p.idle (beginPurgeMutation trashId idle)
  | .retry id => p.idle (retryStorageMutation id)
  | .apply id => match p.running with
    | none => { p with running := some ⟨id,.read⟩ }
    | some _ => p
  | .advance outcome => match p.running with
    | none => p
    | some run =>
      let (entity,phase) := advance run.id p.entity run.phase outcome
      ⟨entity,phase.map (Run.mk run.id)⟩
  | .crash => { p with running := none }
  | .create empty => match p.entity.home with
    | none => { p with entity := { p.entity with home := some (.unrelated empty) } }
    | some _ => p

def InTrash (e : Entity) : Prop := ∃ id whole, e.bin id = some (.content whole)

-- Other processes make a directory only while the content is in the trash.
def Admitted (p : Process) : Event → Prop
  | .create _ => InTrash p.entity
  | _ => True
end LedgeTopOps.StorageLifecycle
