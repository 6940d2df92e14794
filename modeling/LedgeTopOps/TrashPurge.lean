import LedgeTopOps.KeyedRows
import LedgeTopOps.StepRuns

namespace LedgeTopOps.TrashPurge
open KeyedRows

-- The trash of the delivery bucket: tombstones with manifests, objects, the rows kept for source keys, and three
-- operations call by call.
abbrev Key := List Char

inductive Kind where
  | exact | folder
  deriving DecidableEq

structure Tombstone where
  id : Nat
  physicalKey : Key
  kind : Kind
  purgeAfter : Nat
  purging : Option Nat
  restored : Bool
  deriving DecidableEq

structure Stored where
  key : Key
  (etag size : Nat)
  deriving DecidableEq

-- A manifested object. `origins` are the source keys it is derived of; they are no column.
structure TrashObject where
  object : Stored
  derived : Bool
  origins : List Key

structure Recorded where
  tombstone : Nat
  entry : TrashObject
  purged : Bool

structure Artifact where
  (source directory : Key)

-- `thumbnails` are the sources of the thumbnail jobs, whose objects go with them; `deletedFor` is a history: the
-- tombstones an object went for.
structure Store where
  (now nextId : Nat)
  tombstones : List Tombstone
  manifest : List Recorded
  objects : List Stored
  (aliases locations index : List Key)
  artifacts : List Artifact
  thumbnails : List Key
  deletedFor : List Nat

def retention : Nat := 7 * 24 * 60 * 60
def purgeLease : Nat := 30 * 60
def manifestBatch : Nat := 75

def tombstoneMatches (kind : Kind) (physicalKey key : Key) : Bool := match kind with
  | .exact => physicalKey = key
  | .folder => physicalKey.isPrefixOf key

def marker (key : Key) : Bool := key.getLast? = some '/'

def descendants (kind : Kind) (physicalKey : Key) : Key := match kind with
  | .exact => physicalKey++['/']
  | .folder => physicalKey

def beneath (kind : Kind) (physicalKey key : Key) : Bool := key = physicalKey || (descendants kind physicalKey).isPrefixOf key

def listed (kind : Kind) (physicalKey key : Key) : Bool := match kind with
  | .exact => physicalKey = key
  | .folder => physicalKey.isPrefixOf key && !marker key

def listObjects (objects : List Stored) (kind : Kind) (physicalKey : Key) : List Stored := objects.filter fun object => listed kind physicalKey object.key

def artifactRows (directoryOf : Key → Key) (artifacts : List Artifact) (kind : Kind) (physicalKey : Key) : List Artifact :=
  artifacts.filter (fun row => beneath kind physicalKey row.source) ++
    match kind with
    | .exact => [⟨physicalKey,directoryOf physicalKey⟩]
    | .folder => []

def listDerived (objects : List Stored) (rows : List Artifact) : List TrashObject :=
  (objects.filter fun object => rows.any (fun row => row.directory.isPrefixOf object.key) && !marker object.key).map fun object =>
    ⟨object,true,(rows.filter fun row => row.directory.isPrefixOf object.key).map Artifact.source⟩

def enter (entries : List TrashObject) (entry : TrashObject) : List TrashObject :=
  entries.filter (fun other => other.object.key ≠ entry.object.key)++[entry]

def gather (sources : List Stored) (derived : List TrashObject) : List TrashObject :=
  derived.foldl enter (sources.map fun object => ⟨object,false,[]⟩)

def trashSnapshotBlocked (manifest : List Recorded) (current : List TrashObject) : Bool :=
  manifest.isEmpty || current.any fun entry => !manifest.any fun recorded => recorded.entry.object = entry.object

structure Target where
  kind : Kind
  physicalKey : Key

inductive Pc where
  -- executeSourceDelete, from its second resolution of the target
  | resolve (key : Key)
  | exactHead (key : Key)
  | sourceList (key : Key)
  | deleteArtifacts (target : Target) (sources : List Stored)
  | deleteDerived (target : Target) (sources : List Stored) (rows : List Artifact)
  | insert (target : Target) (entries : List TrashObject)
  | record (id : Nat) (target : Target) (entries : List TrashObject)
  | hide (target : Target)
  -- restoreTombstone
  | restoreRead (id : Nat)
  | restoreWrite (id : Nat) (restoredAt : Nat)
  -- purgeTrash, for one tombstone of its list
  | purgeRead (id : Nat)
  | purgeClaim (tombstone : Tombstone)
  | purgeManifest (tombstone : Tombstone)
  | purgeList (tombstone : Tombstone) (manifest : List Recorded)
  | purgeArtifacts (tombstone : Tombstone) (manifest : List Recorded) (current : List Stored)
  | purgeDerived (tombstone : Tombstone) (manifest : List Recorded) (current : List Stored) (rows : List Artifact)
  | purgeBlock (tombstone : Tombstone)
  | purgeDelete (tombstone : Tombstone) (recorded : Recorded) (rest : List Recorded)
  | purgeMark (tombstone : Tombstone) (recorded : Recorded) (rest : List Recorded)
  | purgePending (tombstone : Tombstone)
  | purgeThumbnails (tombstone : Tombstone)
  | purgeBatch (tombstone : Tombstone)
  | halted

def purgeGo (tombstone : Tombstone) : List Recorded → Pc
  | [] => .purgePending tombstone
  | recorded :: rest => if recorded.purged then purgeGo tombstone rest else .purgeDelete tombstone recorded rest

def Tombstone.due (tombstone : Tombstone) (now : Nat) : Bool :=
  !tombstone.restored && tombstone.purgeAfter ≤ now && tombstone.purging.all (· + purgeLease ≤ now)

def Store.tombstone (s : Store) (id : Nat) : Option Tombstone := find Tombstone.id s.tombstones id
def Store.update (s : Store) (id : Nat) (change : Tombstone → Tombstone) : Store := { s with tombstones := amend Tombstone.id s.tombstones id change }

def Store.removeThumbnailState (s : Store) (kind : Kind) (physicalKey : Key) : Store :=
  { s with thumbnails := s.thumbnails.filter fun key => !tombstoneMatches kind physicalKey key }

def Store.remove (s : Store) (rows : Key → Bool) (id : Nat) : Store :=
  { s with
    aliases := s.aliases.filter fun key => !rows key
    locations := s.locations.filter fun key => !rows key
    index := s.index.filter fun key => !rows key
    artifacts := s.artifacts.filter fun row => !rows row.source
    tombstones := s.tombstones.filter fun tombstone => !(tombstone.id = id && !tombstone.restored && tombstone.purging.isSome)
    manifest := s.manifest.filter fun recorded => !(recorded.tombstone = id &&
      s.tombstones.any fun tombstone => tombstone.id = id && !tombstone.restored && tombstone.purging.isSome) }

def Pc.call (directoryOf : Key → Key) (s : Store) : Pc → Option (Store × Pc)
  | .resolve key => some (s,if s.tombstones.any fun tombstone => !tombstone.restored && tombstoneMatches tombstone.kind tombstone.physicalKey key then .halted
      else .exactHead key)
  | .exactHead key => some (s,match s.objects.filter fun object => object.key = key with
      | [] => .sourceList (if marker key then key else key++['/'])
      | found :: _ => .deleteArtifacts ⟨.exact,key⟩ [found])
  | .sourceList key => some (s,match listObjects s.objects .folder key with
      | [] => .halted
      | found :: others => .deleteArtifacts ⟨.folder,key⟩ (found :: others))
  | .deleteArtifacts target sources => some (s,.deleteDerived target sources (artifactRows directoryOf s.artifacts target.kind target.physicalKey))
  | .deleteDerived target sources rows => some (s,.insert target (gather sources (listDerived s.objects rows)))
  | .insert target entries => some
      ({ s with
          tombstones := s.tombstones++[⟨s.nextId,target.physicalKey,target.kind,s.now + retention,none,false⟩]
          nextId := s.nextId + 1 },
        .record s.nextId target entries)
  -- A batch of rows refers to the tombstone.
  | .record id target entries => some (match entries with
      | [] => (s,.hide target)
      | _ :: _ => if (s.tombstone id).isSome then
          ({ s with manifest := s.manifest++(entries.take manifestBatch).map fun entry => ⟨id,entry,false⟩ },.record id target (entries.drop manifestBatch))
        else (s,.halted))
  | .hide target => some (s.removeThumbnailState target.kind target.physicalKey,.halted)
  | .restoreRead id => some (s,match s.tombstone id with
      | some tombstone => if !tombstone.restored && tombstone.purging.isNone && s.now < tombstone.purgeAfter then .restoreWrite id s.now else .halted
      | none => .halted)
  -- The retention is compared with the time the call took before.
  | .restoreWrite id restoredAt => some (s.update id fun tombstone =>
      if !tombstone.restored && tombstone.purging.isNone && restoredAt < tombstone.purgeAfter then { tombstone with restored := true } else tombstone,.halted)
  | .purgeRead id => some (s,match s.tombstone id with
      | some tombstone => if tombstone.due s.now then .purgeClaim tombstone else .halted
      | none => .halted)
  | .purgeClaim tombstone => some
      (s.update tombstone.id fun current => if current.due s.now then { current with purging := some s.now } else current,
        if (s.tombstone tombstone.id).any (·.due s.now) then .purgeManifest tombstone else .halted)
  | .purgeManifest tombstone => some (s,.purgeList tombstone (s.manifest.filter fun recorded => recorded.tombstone = tombstone.id))
  | .purgeList tombstone manifest => some (s,.purgeArtifacts tombstone manifest (listObjects s.objects tombstone.kind tombstone.physicalKey))
  | .purgeArtifacts tombstone manifest current => some
      (s,.purgeDerived tombstone manifest current (artifactRows directoryOf s.artifacts tombstone.kind tombstone.physicalKey))
  | .purgeDerived tombstone manifest current rows => some
      (s,if trashSnapshotBlocked manifest (gather current (listDerived s.objects rows)) then .purgeBlock tombstone else purgeGo tombstone manifest)
  | .purgeBlock tombstone => some
      (s.update tombstone.id fun current => if current.restored then current else { current with purging := none },.halted)
  -- The head and the delete are one step.
  | .purgeDelete tombstone recorded rest => some
      (match s.objects.filter fun object => object.key = recorded.entry.object.key with
        | [] => (s,.purgeMark tombstone recorded rest)
        | found :: _ => if found = recorded.entry.object then
            ({ s with
                objects := s.objects.filter fun object => object.key ≠ recorded.entry.object.key
                deletedFor := tombstone.id :: s.deletedFor },
              .purgeMark tombstone recorded rest)
          else (s,.purgeBlock tombstone))
  | .purgeMark tombstone recorded rest => some
      ({ s with manifest := s.manifest.map fun row =>
          if row.tombstone = tombstone.id && row.entry.object.key = recorded.entry.object.key then { row with purged := true } else row },
        purgeGo tombstone rest)
  | .purgePending tombstone => some (s,if s.manifest.any fun row => row.tombstone = tombstone.id && !row.purged then .halted else .purgeThumbnails tombstone)
  | .purgeThumbnails tombstone => some (s.removeThumbnailState tombstone.kind tombstone.physicalKey,.purgeBatch tombstone)
  | .purgeBatch tombstone => some (s.remove (beneath tombstone.kind tombstone.physicalKey) tombstone.id,.halted)
  | .halted => none

structure World where
  store : Store
  flows : List Pc

-- `upload` puts an object, `note` a row that another process keeps for a source key.
inductive Note where
  | name (key : Key)
  | location (key : Key)
  | index (key : Key)
  | artifact (row : Artifact)
  | thumbnail (key : Key)

inductive Action where
  | delete (key : Key)
  | restore (id : Nat)
  | purge (id : Nat)
  | reply (flow : Nat)
  | crash (flow : Nat)
  | upload (object : Stored)
  | note (row : Note)
  | tick (seconds : Nat)

def Store.note (s : Store) : Note → Store
  | .name key => { s with aliases := key :: s.aliases }
  | .location key => { s with locations := key :: s.locations }
  | .index key => { s with index := key :: s.index }
  | .artifact row => { s with artifacts := row :: s.artifacts }
  | .thumbnail key => { s with thumbnails := key :: s.thumbnails }

def World.begin (w : World) (pc : Pc) : World := { w with flows := w.flows++[pc] }

def next (directoryOf : Key → Key) (w : World) : Action → Option World
  | .delete key => some (w.begin (.resolve key))
  | .restore id => some (w.begin (.restoreRead id))
  | .purge id => some (w.begin (.purgeRead id))
  | .reply index => (w.flows[index]?).bind fun pc => (pc.call directoryOf w.store).map fun step => ⟨step.1,w.flows.set index step.2⟩
  | .crash index => (w.flows[index]?).map fun _ => { w with flows := w.flows.set index .halted }
  | .upload object => some { w with store := { w.store with objects := object :: w.store.objects.filter fun other => other.key ≠ object.key } }
  | .note row => some { w with store := w.store.note row }
  | .tick seconds => some { w with store := { w.store with now := w.store.now + seconds } }
end LedgeTopOps.TrashPurge
