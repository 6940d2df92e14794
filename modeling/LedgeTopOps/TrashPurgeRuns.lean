import LedgeTopOps.TrashPurge

namespace LedgeTopOps.TrashPurge
open List hiding after
open KeyedRows StepRuns

variable {id : Nat}

def live (s : Store) (key : Key) : Bool := s.objects.any (·.key = key)
def Tombstone.covers (t : Tombstone) (key : Key) : Bool := tombstoneMatches t.kind t.physicalKey key
def Tombstone.lists (t : Tombstone) (key : Key) : Bool := listed t.kind t.physicalKey key
def Tombstone.reaches (t : Tombstone) (key : Key) : Bool := beneath t.kind t.physicalKey key

def Pc.claimed : Pc → Option Tombstone
  | .purgeManifest t | .purgeList t _ | .purgeArtifacts t _ _ | .purgeDerived t _ _ _ | .purgeBlock t | .purgeDelete t _ _ | .purgeMark t _ _
  | .purgePending t | .purgeThumbnails t | .purgeBatch t => some t
  | _ => none

def Pc.listing : Pc → Option Tombstone
  | .purgeArtifacts t _ _ | .purgeDerived t _ _ _ | .purgeDelete t _ _ | .purgeMark t _ _ | .purgePending t | .purgeThumbnails t | .purgeBatch t => some t
  | _ => none

-- The manifest rows that a purge has read and not yet passed.
def Pc.records : Pc → List Recorded
  | .purgeList _ manifest | .purgeArtifacts _ manifest _ | .purgeDerived _ manifest _ _ => manifest
  | .purgeDelete _ recorded rest | .purgeMark _ recorded rest => recorded :: rest
  | _ => []

-- A source key whose row the tombstone's purge may take: it matches, and where no listing
-- shows whether it is live, it is not.
def Store.spares (s : Store) (t : Tombstone) (key : Key) : Bool := t.covers key && (t.lists key || !live s key)
def Store.sources (s : Store) : List Key := s.aliases++s.locations++s.index++s.artifacts.map Artifact.source
def Store.origins (s : Store) (id : Nat) : List Key := (s.manifest.filter fun row => row.tombstone = id && row.entry.derived).flatMap (·.entry.origins)

def Pc.spared (s : Store) : Pc → Bool
  -- The preview rows found are of keys that the new tombstone matches.
  | .deleteArtifacts target _ => s.artifacts.all fun row => !beneath target.kind target.physicalKey row.source ||
      tombstoneMatches target.kind target.physicalKey row.source
  -- The retention has not ended since the call took the time.
  | .restoreWrite id restoredAt => (s.tombstone id).all fun t => t.restored || t.purging.isSome || t.purgeAfter ≤ restoredAt || s.now < t.purgeAfter
  -- No object is there again just as an earlier run has purged it.
  | .purgeList t manifest => s.objects.all fun object => !t.lists object.key || manifest.all fun row => !(row.purged && row.entry.object = object)
  -- The tombstone has not been completed by a run that took over.
  | .purgeDelete t recorded _ => (s.tombstone t.id).isSome || !s.objects.any (· = recorded.entry.object)
  | .purgeBatch t => (s.sources.all fun key => !t.reaches key || s.spares t key) && (s.origins t.id).all fun key => t.lists key || !live s key
  | _ => true

def spared (w : World) : Action → Bool
  | .reply index => (w.flows[index]?).all (Pc.spared w.store)
  -- No purge that has listed its objects is still to finish.
  | .upload object => w.flows.all fun pc => pc.listing.all fun t => !t.lists object.key
  | _ => true

-- What a step owes: an upload replaces what its key had; all else that goes is in the manifest of a tombstone that
-- may go.
structure Faithful (w v : World) (action : Action) : Prop where
  objects : ∀ object ∈ w.store.objects, object ∉ v.store.objects → (∃ other, action = .upload other ∧ other.key = object.key) ∨
    ∃ t ∈ w.store.tombstones, t.restored = false ∧ t.purgeAfter ≤ w.store.now ∧
      ∃ row ∈ w.store.manifest, row.tombstone = t.id ∧ row.entry.object = object
  restored : ∀ t ∈ v.store.tombstones, t.id ∈ v.store.deletedFor → t.restored = false
  rows : ∀ index t, action = .reply index → w.flows[index]? = some (.purgeBatch t) →
    (∀ key ∈ w.store.sources, key ∉ v.store.sources → t.covers key = true ∧ live w.store key = false) ∧
    ∀ row ∈ w.store.manifest, row.tombstone = t.id → row.entry.derived = true → ∀ key ∈ row.entry.origins, t.covers key = true ∧ live w.store key = false

structure Kept (s : Store) : Prop where
  keyed : Keyed Tombstone.id s.tombstones
  ids : ∀ t ∈ s.tombstones, t.id < s.nextId
  owned : ∀ row ∈ s.manifest, ∃ t ∈ s.tombstones, t.id = row.tombstone
  origins : ∀ row ∈ s.manifest, row.entry.derived = true → ∀ t ∈ s.tombstones, t.id = row.tombstone → ∀ key ∈ row.entry.origins, t.covers key = true
  single : ∀ object ∈ s.objects, ∀ other ∈ s.objects, object.key = other.key → object = other
  gone : ∀ id ∈ s.deletedFor, id < s.nextId ∧ ∀ t ∈ s.tombstones, t.id = id → t.restored = false ∧ t.purgeAfter ≤ s.now

def Known (s : Store) (t : Tombstone) : Prop := t.id < s.nextId ∧ ∀ row ∈ s.tombstones, row.id = t.id → row.kind = t.kind ∧ row.physicalKey = t.physicalKey
def Due (s : Store) (t : Tombstone) : Prop := Known s t ∧ ∀ row ∈ s.tombstones, row.id = t.id → row.restored = false ∧ row.purgeAfter ≤ s.now

structure Evolves (s t : Store) (added : Option Stored) : Prop where
  now : s.now ≤ t.now
  nextId : s.nextId ≤ t.nextId
  tombstones : ∀ row ∈ t.tombstones, s.nextId ≤ row.id ∨ ∃ old ∈ s.tombstones, old.id = row.id ∧ old.kind = row.kind ∧
    old.physicalKey = row.physicalKey ∧ old.purgeAfter = row.purgeAfter ∧ (row.restored = old.restored ∨ s.now < old.purgeAfter)
  manifest : ∀ row ∈ s.manifest, (∃ t' ∈ t.tombstones, t'.id = row.tombstone) → ∃ row' ∈ t.manifest, row'.tombstone = row.tombstone ∧ row'.entry = row.entry
  objects : ∀ object ∈ t.objects, object ∈ s.objects ∨ added = some object

theorem same_tombstone (row : Tombstone) (s : Store) : row.id = row.id ∧ row.kind = row.kind ∧ row.physicalKey = row.physicalKey ∧
    row.purgeAfter = row.purgeAfter ∧ (row.restored = row.restored ∨ s.now < row.purgeAfter) := ⟨rfl,rfl,rfl,rfl,.inl rfl⟩

theorem Evolves.refl (s : Store) : Evolves s s none :=
  ⟨Nat.le_refl _,Nat.le_refl _,fun row mem => .inr ⟨row,mem,same_tombstone row s⟩,fun row mem _ => ⟨row,mem,rfl,rfl⟩,fun _ mem => .inl mem⟩

theorem Known.carry (known : Known s t) (evolves : Evolves s s' added) : Known s' t := by
  refine ⟨Nat.lt_of_lt_of_le known.1 evolves.nextId,fun row mem same => ?_⟩
  obtain fresh | ⟨old,there,id,kind,key,_⟩ := evolves.tombstones row mem
  · exact absurd known.1 (Nat.not_lt.mpr (same ▸ fresh))
  obtain ⟨kind',key'⟩ := known.2 old there (id.trans same)
  exact ⟨kind.symm.trans kind',key.symm.trans key'⟩

theorem Due.carry (due : Due s t) (evolves : Evolves s s' added) : Due s' t := by
  refine ⟨due.1.carry evolves,fun row mem same => ?_⟩
  obtain fresh | ⟨old,there,id,_,_,after,restored⟩ := evolves.tombstones row mem
  · exact absurd due.1.1 (Nat.not_lt.mpr (same ▸ fresh))
  obtain ⟨unrestored,ended⟩ := due.2 old there (id.trans same)
  obtain as | early := restored
  · exact ⟨as.trans unrestored,Nat.le_trans (after ▸ ended) evolves.now⟩
  exact absurd ended (Nat.not_le.mpr early)

def Held (s : Store) (t : Tombstone) (r : Recorded) : Prop :=
  r.tombstone = t.id ∧ ((∃ row ∈ s.tombstones, row.id = t.id) → ∃ row ∈ s.manifest, row.tombstone = t.id ∧ row.entry = r.entry)

theorem Held.carry (held : Held s t r) (known : Known s t) (evolves : Evolves s s' added) : Held s' t r := by
  refine ⟨held.1,fun ⟨row,mem,same⟩ => ?_⟩
  obtain fresh | ⟨old,there,id,_⟩ := evolves.tombstones row mem
  · exact absurd known.1 (Nat.not_lt.mpr (same ▸ fresh))
  obtain ⟨kept,place,owner,entry⟩ := held.2 ⟨old,there,id.trans same⟩
  obtain ⟨kept',place',owner',entry'⟩ := evolves.manifest kept place ⟨row,mem,same.trans owner.symm⟩
  exact ⟨kept',place',owner'.trans owner,entry'.trans entry⟩

def Waits (rows : List Recorded) (object : Stored) : Prop := ∃ r ∈ rows, r.purged = false ∧ r.entry.object = object

def Pc.accounts (object : Stored) : Pc → Prop
  | .purgeArtifacts _ manifest current | .purgeDerived _ manifest current _ =>
    object ∈ current ∧ ∀ r ∈ manifest, r.entry.object = object → r.purged = false
  | .purgeDelete _ recorded rest => Waits (recorded :: rest) object
  | .purgeMark _ recorded rest => object.key ≠ recorded.entry.object.key ∧ Waits rest object
  | .purgePending _ | .purgeThumbnails _ | .purgeBatch _ => False
  | _ => True

def matched (target : Target) (entries : List TrashObject) : Prop :=
  ∀ entry ∈ entries, entry.derived = true → ∀ key ∈ entry.origins, tombstoneMatches target.kind target.physicalKey key = true

def Pc.prepared (s : Store) : Pc → Prop
  | .deleteDerived target _ rows => ∀ row ∈ rows, tombstoneMatches target.kind target.physicalKey row.source = true
  | .insert target entries => matched target entries
  | .record id target entries => matched target entries ∧ id < s.nextId ∧ ∀ t ∈ s.tombstones, t.id = id → t.kind = target.kind ∧ t.physicalKey = target.physicalKey
  | .purgeClaim t => Known s t
  | _ => True

structure Fits (s : Store) (pc : Pc) : Prop where
  claimed : ∀ t, pc.claimed = some t → Due s t
  records : ∀ t, pc.claimed = some t → ∀ r ∈ pc.records, Held s t r
  cover : ∀ t, pc.listing = some t → ∀ object ∈ s.objects, t.lists object.key = true → pc.accounts object
  prepared : pc.prepared s

theorem Fits.carry (fits : Fits s pc) (evolves : Evolves s s' added)
    (apart : ∀ t, pc.listing = some t → ∀ object, added = some object → t.lists object.key = false) : Fits s' pc where
  claimed t is := (fits.claimed t is).carry evolves
  records t is r mem := (fits.records t is r mem).carry (fits.claimed t is).1 evolves
  cover t is object mem lists := by
    obtain old | new := evolves.objects object mem
    · exact fits.cover t is object old lists
    rw [apart t is object new] at lists; cases lists
  prepared := by
    have before := fits.prepared
    cases pc with
    | deleteDerived | insert => exact before
    | purgeClaim => exact Known.carry before evolves
    | record =>
      obtain ⟨matches',fresh,target'⟩ := before
      refine ⟨matches',Nat.lt_of_lt_of_le fresh evolves.nextId,fun row mem same => ?_⟩
      obtain late | ⟨old,there,id',kind,key,_⟩ := evolves.tombstones row mem
      · exact absurd fresh (Nat.not_lt.mpr (same ▸ late))
      obtain ⟨kind',key'⟩ := target' old there (id'.trans same)
      exact ⟨kind.symm.trans kind',key.symm.trans key'⟩
    | _ => trivial

theorem light_fits (claimed : pc.claimed = none) (listing : pc.listing = none) (prepared : pc.prepared s) : Fits s pc :=
  ⟨fun t is => by rw [claimed] at is; (cases is),fun t is => by rw [claimed] at is; (cases is),fun t is => by rw [listing] at is; (cases is),prepared⟩

structure Alike (s : Store) (old new : Tombstone) : Prop where
  id : new.id = old.id
  kind : new.kind = old.kind
  physicalKey : new.physicalKey = old.physicalKey
  purgeAfter : new.purgeAfter = old.purgeAfter
  restored : new.restored = old.restored ∨ s.now < old.purgeAfter

theorem Alike.refl (s : Store) (t : Tombstone) : Alike s t t := ⟨rfl,rfl,rfl,rfl,.inl rfl⟩

theorem update_mem (alike : ∀ row ∈ s.tombstones, row.id = id → Alike s row (change row)) (mem : row ∈ (s.update id change).tombstones) :
    ∃ old ∈ s.tombstones, Alike s old row := by
  obtain ⟨there,_⟩ | ⟨old,there,same,rfl⟩ := mem_amend.mp mem
  · exact ⟨row,there,.refl s row⟩
  exact ⟨old,there,alike old there same⟩

theorem update_evolves (alike : ∀ row ∈ s.tombstones, row.id = id → Alike s row (change row)) : Evolves s (s.update id change) none where
  now := Nat.le_refl _
  nextId := Nat.le_refl _
  tombstones row mem := by
    obtain ⟨old,there,same⟩ := update_mem alike mem
    exact .inr ⟨old,there,same.id.symm,same.kind.symm,same.physicalKey.symm,same.purgeAfter.symm,same.restored⟩
  manifest row mem _ := ⟨row,mem,rfl,rfl⟩
  objects _ mem := .inl mem

theorem Kept.update (kept : Kept s) (alike : ∀ row ∈ s.tombstones, row.id = id → Alike s row (change row)) : Kept (s.update id change) where
  keyed := kept.keyed.amend change fun row mem same => (alike row mem same).id
  ids row mem := by
    obtain ⟨old,there,same⟩ := update_mem alike mem
    rw [same.id]; exact kept.ids old there
  owned row mem := by
    obtain ⟨t,there,same⟩ := kept.owned row mem
    by_cases here : t.id = id
    · exact ⟨change t,mem_amend.mpr (.inr ⟨t,there,here,rfl⟩),(alike t there here).id.trans same⟩
    exact ⟨t,mem_amend.mpr (.inl ⟨there,here⟩),same⟩
  origins row mem derived t there same key origin := by
    obtain ⟨old,before,alike'⟩ := update_mem alike there
    have covers := kept.origins row mem derived old before (alike'.id.symm.trans same) key origin
    unfold Tombstone.covers at covers ⊢
    rw [alike'.kind,alike'.physicalKey]; exact covers
  single := kept.single
  gone number mem := by
    obtain ⟨fresh,rest⟩ := kept.gone number mem
    refine ⟨fresh,fun t there same => ?_⟩
    obtain ⟨old,before,alike'⟩ := update_mem alike there
    obtain ⟨unrestored,ended⟩ := rest old before (alike'.id.symm.trans same)
    obtain as | early := alike'.restored
    · exact ⟨as.trans unrestored,alike'.purgeAfter ▸ ended⟩
    exact absurd ended (Nat.not_le.mpr early)

theorem found_tombstone {s : Store} (found : s.tombstone id = some t) : t ∈ s.tombstones ∧ t.id = id := find_some found

theorem claim_due {s : Store} (kept : Kept s) (known : Known s t) (due : (s.tombstone t.id).any (·.due s.now))
    (alike : ∀ row ∈ s.tombstones, row.id = t.id → Alike s row (change row)) (still : ∀ row, (change row).restored = row.restored) :
    Due (s.update t.id change) t := by
  refine ⟨known.carry (update_evolves alike),fun row mem same => ?_⟩
  obtain ⟨found,is,due'⟩ := (Option.any_eq_true _ _).mp due
  obtain ⟨there,id⟩ := found_tombstone is
  obtain ⟨unrestored,ended⟩ : found.restored = false ∧ found.purgeAfter ≤ s.now := by
    simp only [Tombstone.due,Bool.and_eq_true,Bool.not_eq_true',decide_eq_true_eq] at due'
    exact due'.1
  obtain ⟨_,apart⟩ | ⟨old,before,here,changed⟩ := mem_amend.mp mem
  · exact absurd same apart
  have one : old = found := kept.keyed.unique before there (here.trans id.symm)
  subst one changed
  exact ⟨(still old).trans unrestored,(alike old before here).purgeAfter ▸ ended⟩

theorem mem_enter : entry ∈ enter entries other ↔ (entry ∈ entries ∧ entry.object.key ≠ other.object.key) ∨ entry = other := by
  simp [enter]

theorem gather_from {derived entries : List TrashObject} (mem : entry ∈ derived.foldl enter entries) : entry ∈ entries ∨ entry ∈ derived := by
  induction derived generalizing entries with
  | nil => exact .inl mem
  | cons _ _ ih =>
    obtain early | late := ih mem
    · obtain ⟨old,_⟩ | rfl := mem_enter.mp early
      · exact .inl old
      · exact .inr (.head _)
    exact .inr (.tail _ late)

theorem gather_holds {derived entries : List TrashObject} (whole : ∀ entry ∈ derived, entry.object.key = object.key → entry.object = object)
    (present : ∃ entry ∈ entries, entry.object = object) : ∃ entry ∈ derived.foldl enter entries, entry.object = object := by
  induction derived generalizing entries with
  | nil => exact present
  | cons first _ ih =>
    refine ih (fun entry mem => whole entry (.tail _ mem)) ?_
    obtain ⟨entry,mem,same⟩ := present
    by_cases here : entry.object.key = first.object.key
    · exact ⟨first,mem_enter.mpr (.inr rfl),whole first (.head _) (here.symm.trans (congrArg Stored.key same))⟩
    exact ⟨entry,mem_enter.mpr (.inl ⟨mem,here⟩),same⟩

theorem listDerived_mem (mem : entry ∈ listDerived objects rows) : entry.object ∈ objects ∧ ∀ key ∈ entry.origins, ∃ row ∈ rows, row.source = key := by
  obtain ⟨_,there,rfl⟩ := mem_map.mp mem
  refine ⟨(mem_filter.mp there).1,fun key origin => ?_⟩
  obtain ⟨row,among,rfl⟩ := mem_map.mp origin
  exact ⟨row,(mem_filter.mp among).1,rfl⟩

theorem gather_matched {found : List Artifact} (rows : ∀ row ∈ found, tombstoneMatches target.kind target.physicalKey row.source) :
    matched target (gather sources (listDerived objects found)) := by
  intro _ mem derived key origin
  obtain source | listed' := gather_from mem
  · obtain ⟨_,_,rfl⟩ := mem_map.mp source
    cases derived
  obtain ⟨row,there,rfl⟩ := (listDerived_mem listed').2 key origin
  exact rows row there

theorem live_iff : live s key ↔ ∃ object ∈ s.objects, object.key = key := by
  simp [live]

theorem mem_listObjects : object ∈ listObjects objects kind key ↔ object ∈ objects ∧ listed kind key object.key := mem_filter

theorem go_fits (due : Due s t) (held : ∀ r ∈ manifest, Held s t r)
    (cover : ∀ object ∈ s.objects, t.lists object.key → Waits manifest object) : Fits s (purgeGo t manifest) := by
  induction manifest with
  | nil =>
    refine ⟨fun _ is => by cases is; exact due,fun _ _ r mem => (nomatch mem),fun _ is object mem lists => ?_,trivial⟩
    cases is
    obtain ⟨r,mem,_⟩ := cover object mem lists
    cases mem
  | cons recorded rest ih =>
    unfold purgeGo
    split
    · rename_i purged
      refine ih (fun r mem => held r (.tail _ mem)) fun object mem lists => ?_
      obtain ⟨r,there,unpurged,same⟩ := cover object mem lists
      obtain rfl | later := mem_cons.mp there
      · rw [purged] at unpurged; cases unpurged
      exact ⟨r,later,unpurged,same⟩
    exact ⟨fun _ is => by cases is; exact due,fun _ is r mem => by cases is; exact held r mem,
      fun _ is object mem lists => by cases is; exact cover object mem lists,trivial⟩

structure Owes (s t : Store) (pc after : Pc) : Prop where
  kept : Kept t
  evolves : Evolves s t none
  fits : Fits t after
  objects : ∀ object ∈ s.objects, object ∉ t.objects → ∃ row ∈ s.tombstones, row.restored = false ∧ row.purgeAfter ≤ s.now ∧
    ∃ r ∈ s.manifest, r.tombstone = row.id ∧ r.entry.object = object
  rows : ∀ tombstone, pc = .purgeBatch tombstone →
    (∀ key ∈ s.sources, key ∉ t.sources → tombstone.covers key = true ∧ live s key = false) ∧
    ∀ row ∈ s.manifest, row.tombstone = tombstone.id → row.entry.derived = true → ∀ key ∈ row.entry.origins, tombstone.covers key = true ∧ live s key = false

theorem reads (kept : Kept s) (fits : Fits s after) (other : ∀ tombstone, pc ≠ .purgeBatch tombstone) : Owes s s pc after :=
  ⟨kept,.refl s,fits,fun _ mem gone => absurd mem gone,fun tombstone is => absurd is (other tombstone)⟩

theorem writes (kept : Kept t) (evolves : Evolves s t none) (objects : t.objects = s.objects) (fits : Fits t after)
    (other : ∀ tombstone, pc ≠ .purgeBatch tombstone) : Owes s t pc after :=
  ⟨kept,evolves,fits,fun _ mem gone => absurd (objects ▸ mem) gone,fun tombstone is => absurd is (other tombstone)⟩

theorem halted_fits (s : Store) : Fits s .halted := light_fits rfl rfl trivial

section
variable {s : Store}
include s

theorem Kept.insert (kept : Kept s) (target : Target) :
    Kept { s with
      tombstones := s.tombstones++[⟨s.nextId,target.physicalKey,target.kind,s.now + retention,none,false⟩]
      nextId := s.nextId + 1 } where
  keyed := kept.keyed.add fun row mem same => Nat.lt_irrefl _ (same ▸ kept.ids row mem)
  ids row mem := by
    obtain old | new := mem_append.mp mem
    · exact Nat.lt_succ_of_lt (kept.ids row old)
    rw [mem_singleton.mp new]; exact Nat.lt_succ_self _
  owned row mem := by
    obtain ⟨t,there,same⟩ := kept.owned row mem
    exact ⟨t,mem_append_left _ there,same⟩
  origins row mem derived t there same := by
    obtain old | new := mem_append.mp there
    · exact kept.origins row mem derived t old same
    obtain ⟨owner,at',number⟩ := kept.owned row mem
    rw [mem_singleton.mp new] at same
    exact absurd (kept.ids owner at') (by rw [number,←same]; exact Nat.lt_irrefl _)
  single := kept.single
  gone id mem := by
    obtain ⟨fresh,rest⟩ := kept.gone id mem
    refine ⟨Nat.lt_succ_of_lt fresh,fun t there same => ?_⟩
    obtain old | new := mem_append.mp there
    · exact rest t old same
    rw [mem_singleton.mp new] at same
    exact absurd fresh (by rw [←same]; exact Nat.lt_irrefl _)

theorem insert_evolves (target : Target) : Evolves s { s with
      tombstones := s.tombstones++[⟨s.nextId,target.physicalKey,target.kind,s.now + retention,none,false⟩]
      nextId := s.nextId + 1 } none where
  now := Nat.le_refl _
  nextId := Nat.le_succ _
  tombstones row mem := by
    obtain old | new := mem_append.mp mem
    · exact .inr ⟨row,old,same_tombstone row s⟩
    rw [mem_singleton.mp new]; exact .inl (Nat.le_refl _)
  manifest row mem _ := ⟨row,mem,rfl,rfl⟩
  objects _ mem := .inl mem

theorem Kept.manifested (kept : Kept s) (stands : (s.tombstone id).isSome) (fits : Pc.prepared s (.record id target entries)) :
    Kept { s with manifest := s.manifest++(entries.take manifestBatch).map fun entry => ⟨id,entry,false⟩ } where
  keyed := kept.keyed
  ids := kept.ids
  owned row mem := by
    obtain old | new := mem_append.mp mem
    · exact kept.owned row old
    obtain ⟨_,_,rfl⟩ := mem_map.mp new
    obtain ⟨t,is⟩ := Option.isSome_iff_exists.mp stands
    exact ⟨t,found_tombstone is⟩
  origins row mem derived t there same key origin := by
    obtain old | new := mem_append.mp mem
    · exact kept.origins row old derived t there same key origin
    obtain ⟨entry,among,rfl⟩ := mem_map.mp new
    obtain ⟨kind,physicalKey⟩ := fits.2.2 t there same
    unfold Tombstone.covers
    rw [kind,physicalKey]
    exact fits.1 entry (mem_of_mem_take among) derived key origin
  single := kept.single
  gone := kept.gone

theorem Kept.marked (kept : Kept s) (change : Recorded → Recorded)
    (same : ∀ row, (change row).tombstone = row.tombstone ∧ (change row).entry = row.entry) : Kept { s with manifest := s.manifest.map change } where
  keyed := kept.keyed
  ids := kept.ids
  owned row mem := by
    obtain ⟨old,there,rfl⟩ := mem_map.mp mem
    obtain ⟨t,at',number⟩ := kept.owned old there
    exact ⟨t,at',number.trans (same old).1.symm⟩
  origins row mem derived t there number key origin := by
    obtain ⟨old,before,rfl⟩ := mem_map.mp mem
    rw [(same old).2] at derived origin
    exact kept.origins old before derived t there (number.trans (same old).1) key origin
  single := kept.single
  gone := kept.gone

theorem marked_evolves (change : Recorded → Recorded)
    (same : ∀ row, (change row).tombstone = row.tombstone ∧ (change row).entry = row.entry) : Evolves s { s with manifest := s.manifest.map change } none where
  now := Nat.le_refl _
  nextId := Nat.le_refl _
  tombstones row mem := .inr ⟨row,mem,same_tombstone row s⟩
  manifest row mem _ := ⟨change row,mem_map.mpr ⟨row,mem,rfl⟩,same row⟩
  objects _ mem := .inl mem

theorem delete_owes (kept : Kept s) (fits : Fits s (.purgeDelete t recorded rest))
    (stands : (s.tombstone t.id).isSome) (found : recorded.entry.object ∈ s.objects) :
    Owes s { s with
      objects := s.objects.filter fun object => object.key ≠ recorded.entry.object.key
      deletedFor := t.id :: s.deletedFor } (.purgeDelete t recorded rest) (.purgeMark t recorded rest) := by
  have due := fits.claimed t rfl
  have evolves : Evolves s { s with
      objects := s.objects.filter fun object => object.key ≠ recorded.entry.object.key
      deletedFor := t.id :: s.deletedFor } none :=
    ⟨Nat.le_refl _,Nat.le_refl _,fun row mem => .inr ⟨row,mem,same_tombstone row s⟩,fun row mem _ => ⟨row,mem,rfl,rfl⟩, fun _ mem => .inl (mem_filter.mp mem).1⟩
  refine ⟨⟨kept.keyed,kept.ids,kept.owned,kept.origins,fun object mem other there => ?_,fun id mem => ?_⟩,evolves,
    ⟨fun _ is => ?_,fun _ is r mem => ?_,fun _ is object mem lists => ?_,trivial⟩,fun object mem gone => ?_,nofun⟩
  · exact kept.single object (mem_filter.mp mem).1 other (mem_filter.mp there).1
  · obtain rfl | old := mem_cons.mp mem
    · exact ⟨due.1.1,due.2⟩
    · exact kept.gone id old
  · cases is; exact due.carry evolves
  · cases is; exact (fits.records t rfl r mem).carry due.1 evolves
  · cases is
    obtain ⟨there,apart⟩ := mem_filter.mp mem
    obtain ⟨r,among,unpurged,same⟩ := fits.cover t rfl object there lists
    refine ⟨of_decide_eq_true apart,?_⟩
    obtain rfl | later := mem_cons.mp among
    · exact absurd (congrArg Stored.key same.symm) (of_decide_eq_true apart)
    exact ⟨r,later,unpurged,same⟩
  have taken : object.key = recorded.entry.object.key := by
    by_contra apart
    exact gone (mem_filter.mpr ⟨mem,decide_eq_true apart⟩)
  cases kept.single object mem _ found taken
  obtain ⟨row,is⟩ := Option.isSome_iff_exists.mp stands
  obtain ⟨there,id⟩ := found_tombstone is
  obtain ⟨unrestored,ended⟩ := due.2 row there id
  obtain ⟨kept',place,owner,entry⟩ := (fits.records t rfl recorded (.head _)).2 ⟨row,there,id⟩
  exact ⟨row,there,unrestored,ended,kept',place,owner.trans id.symm,by rw [entry]⟩

theorem removed_tombstones (mem : row ∈ (s.remove rows id).tombstones) : row ∈ s.tombstones ∧ ¬(row.id = id ∧ row.restored = false ∧ row.purging.isSome) := by
  obtain ⟨there,stays⟩ := mem_filter.mp mem
  refine ⟨there,fun ⟨same,unrestored,purging⟩ => ?_⟩
  simp [same,unrestored,purging] at stays

theorem removed_manifest : row ∈ (s.remove rows id).manifest ↔ row ∈ s.manifest ∧
    ¬(row.tombstone = id ∧ ∃ t ∈ s.tombstones, t.id = id ∧ t.restored = false ∧ t.purging.isSome) := by
  unfold Store.remove
  rw [mem_filter,Bool.not_eq_true',←Bool.not_eq_true]
  refine and_congr_right fun _ => not_congr ?_
  simp [and_assoc]

theorem Kept.removed (kept : Kept s) (rows : Key → Bool) (id : Nat) : Kept (s.remove rows id) where
  keyed := Nodup.sublist (Sublist.map _ filter_sublist) kept.keyed
  ids row mem := kept.ids row (removed_tombstones mem).1
  owned row mem := by
    obtain ⟨there,stays⟩ := removed_manifest.mp mem
    obtain ⟨t,at',number⟩ := kept.owned row there
    refine ⟨t,mem_filter.mpr ⟨at',?_⟩,number⟩
    by_contra gone
    obtain ⟨⟨same,unrestored⟩,purging⟩ : (t.id = id ∧ t.restored = false) ∧ t.purging.isSome := by
      simpa [Option.isSome_iff_ne_none] using gone
    exact stays ⟨number.symm.trans same,t,at',same,unrestored,purging⟩
  origins row mem derived t there := kept.origins row (removed_manifest.mp mem).1 derived t (removed_tombstones there).1
  single := kept.single
  gone number mem := by
    obtain ⟨fresh,rest⟩ := kept.gone number mem
    exact ⟨fresh,fun t there => rest t (removed_tombstones there).1⟩

theorem removed_evolves (kept : Kept s) (rows : Key → Bool) (id : Nat) : Evolves s (s.remove rows id) none where
  now := Nat.le_refl _
  nextId := Nat.le_refl _
  tombstones row mem := .inr ⟨row,(removed_tombstones mem).1,same_tombstone row s⟩
  manifest row mem stands := by
    obtain ⟨t,there,number⟩ := stands
    obtain ⟨before,remains⟩ := removed_tombstones there
    refine ⟨row,removed_manifest.mpr ⟨mem,fun ⟨owner,other,at',same,gone⟩ => ?_⟩,rfl,rfl⟩
    cases kept.keyed.unique at' before (same.trans (owner.symm.trans number.symm))
    exact remains ⟨same,gone⟩
  objects _ mem := .inl mem

theorem removed_source (mem : key ∈ s.sources) (gone : key ∉ (s.remove rows id).sources) : rows key := by
  by_contra stays
  refine gone ?_
  have free : (!rows key) := by rw [Bool.eq_false_iff.mpr stays]; rfl
  simp only [Store.sources,mem_append,mem_map] at mem ⊢
  obtain ((name | location) | entry) | ⟨row,there,rfl⟩ := mem
  · exact .inl (.inl (.inl (mem_filter.mpr ⟨name,free⟩)))
  · exact .inl (.inl (.inr (mem_filter.mpr ⟨location,free⟩)))
  · exact .inl (.inr (mem_filter.mpr ⟨entry,free⟩))
  exact .inr ⟨row,mem_filter.mpr ⟨there,free⟩,rfl⟩

theorem mem_origins (mem : row ∈ s.manifest) (owner : row.tombstone = id) (derived : row.entry.derived)
    (origin : key ∈ row.entry.origins) : key ∈ s.origins id :=
  mem_flatMap.mpr ⟨row,mem_filter.mpr ⟨mem,by simp [owner,derived]⟩,origin⟩

theorem batch_owes (kept : Kept s) (fits : Fits s (.purgeBatch t)) (spare : Pc.spared s (.purgeBatch t)) :
    Owes s (s.remove (beneath t.kind t.physicalKey) t.id) (.purgeBatch t) .halted := by
  refine ⟨kept.removed _ _,removed_evolves kept _ _,halted_fits _,fun _ mem gone => absurd mem gone,fun tombstone is => ?_⟩
  cases is
  obtain ⟨matching,unlisted⟩ := Bool.and_eq_true_iff.mp spare
  have dead : ∀ key, (t.lists key || !live s key) → live s key = false := by
    intro _ which
    by_contra lives
    have lives' := Bool.not_eq_false _ ▸ lives
    obtain ⟨object,mem,rfl⟩ := live_iff.mp lives'
    rw [lives',Bool.not_true,Bool.or_false] at which
    exact fits.cover t rfl object mem which
  refine ⟨fun key mem gone => ?_,fun row mem owner derived key origin => ?_⟩
  · have reaches : t.reaches key := removed_source mem gone
    have safe := all_eq_true.mp matching key mem
    rw [reaches,Bool.not_true,Bool.false_or] at safe
    obtain ⟨covers,which⟩ := Bool.and_eq_true_iff.mp safe
    exact ⟨covers,dead key which⟩
  obtain ⟨standing,there,number⟩ := kept.owned row mem
  have covers := kept.origins row mem derived standing there number key origin
  obtain ⟨kind,physicalKey⟩ := (fits.claimed t rfl).1.2 standing there (number.trans owner)
  refine ⟨?_,dead key (all_eq_true.mp unlisted key (mem_origins mem owner derived origin))⟩
  unfold Tombstone.covers at covers ⊢
  rw [←kind,←physicalKey]; exact covers
end

theorem call_owes (kept : Kept s) (fits : Fits s pc) (spare : pc.spared s) (ran : pc.call directoryOf s = some (t,after)) : Owes s t pc after := by
  cases pc with
  | halted => cases ran
  | resolve =>
    cases ran
    refine reads kept ?_ nofun
    split
    · exact halted_fits _
    exact light_fits rfl rfl trivial
  | deleteArtifacts target =>
    cases ran
    refine reads kept (light_fits rfl rfl fun row mem => ?_) nofun
    obtain kept' | own := mem_append.mp mem
    · obtain ⟨there,below⟩ := mem_filter.mp kept'
      have safe := all_eq_true.mp spare row there
      rwa [below,Bool.not_true,Bool.false_or] at safe
    cases kind : target.kind with
    | exact =>
      rw [kind] at own
      rw [mem_singleton.mp own]
      exact decide_eq_true rfl
    | folder => rw [kind] at own; cases own
  | deleteDerived =>
    cases ran
    exact reads kept (light_fits rfl rfl (gather_matched fits.prepared)) nofun
  | insert target =>
    cases ran
    refine writes (kept.insert target) (insert_evolves target) rfl (light_fits rfl rfl ⟨fits.prepared,Nat.lt_succ_self _,fun row mem same => ?_⟩) nofun
    obtain old | new := mem_append.mp mem
    · exact absurd (kept.ids row old) (by rw [same]; exact Nat.lt_irrefl _)
    rw [mem_singleton.mp new]; exact ⟨rfl,rfl⟩
  | record id target entries =>
    cases entries with
    | nil => cases ran; exact reads kept (light_fits rfl rfl trivial) nofun
    | cons first rest =>
      have called : (if (s.tombstone id).isSome then
          (({ s with manifest := s.manifest++((first :: rest).take manifestBatch).map fun entry => ⟨id,entry,false⟩ } : Store),
            Pc.record id target ((first :: rest).drop manifestBatch))
        else (s,Pc.halted)) = (t,after) := Option.some.inj ran
      split at called
      · rename_i stands
        cases called
        refine writes (kept.manifested stands fits.prepared) ?_ rfl (light_fits rfl rfl ?_) nofun
        · exact ⟨Nat.le_refl _,Nat.le_refl _,fun row mem => .inr ⟨row,mem,same_tombstone row s⟩,
            fun row mem _ => ⟨row,mem_append_left _ mem,rfl,rfl⟩,fun _ mem => .inl mem⟩
        exact ⟨fun entry mem => fits.prepared.1 entry (mem_of_mem_drop mem),fits.prepared.2⟩
      cases called
      exact reads kept (halted_fits _) nofun
  | hide =>
    cases ran
    have evolves := Evolves.refl s
    exact writes ⟨kept.keyed,kept.ids,kept.owned,kept.origins,kept.single,kept.gone⟩
      ⟨evolves.now,evolves.nextId,evolves.tombstones,evolves.manifest,evolves.objects⟩ rfl (halted_fits _) nofun
  | restoreRead =>
    cases ran
    refine reads kept ?_ nofun
    split
    · split
      · exact light_fits rfl rfl trivial
      · exact halted_fits _
    exact halted_fits _
  | restoreWrite id restoredAt =>
    cases ran
    have alike : ∀ row ∈ s.tombstones, row.id = id → Alike s row
        (if !row.restored && row.purging.isNone && restoredAt < row.purgeAfter then { row with restored := true } else row) := by
      intro row mem same
      split
      · rename_i matches'
        refine ⟨rfl,rfl,rfl,rfl,.inr ?_⟩
        have is : s.tombstone id = some row := same ▸ kept.keyed.find mem
        have safe : (row.restored || row.purging.isSome || decide (row.purgeAfter ≤ restoredAt) || decide (s.now < row.purgeAfter)) := by
          have whole : (s.tombstone id).all _ := spare
          rw [is] at whole
          exact whole
        simp only [Bool.and_eq_true,Bool.not_eq_true',Option.isNone_iff_eq_none,decide_eq_true_eq] at matches'
        obtain ⟨⟨unrestored,free⟩,early⟩ := matches'
        simpa [unrestored,free,Nat.not_le.mpr early] using safe
      exact .refl s row
    exact writes (kept.update alike) (update_evolves alike) rfl (halted_fits _) nofun
  | purgeRead id =>
    cases ran
    refine reads kept ?_ nofun
    split
    · rename_i row is
      split
      · obtain ⟨mem,_⟩ := found_tombstone is
        refine light_fits rfl rfl ⟨kept.ids row mem,fun other there same => ?_⟩
        cases kept.keyed.unique there mem same
        exact ⟨rfl,rfl⟩
      exact halted_fits _
    exact halted_fits _
  | purgeClaim tombstone =>
    cases ran
    have alike : ∀ row ∈ s.tombstones, row.id = tombstone.id → Alike s row (if row.due s.now then { row with purging := some s.now } else row) := by
      intro row _ _
      split
      · exact ⟨rfl,rfl,rfl,rfl,.inl rfl⟩
      exact .refl s row
    refine writes (kept.update alike) (update_evolves alike) rfl ?_ nofun
    split
    · rename_i due
      have claimed := claim_due kept fits.prepared due alike fun row => by split <;> rfl
      exact ⟨fun _ is => by cases is; exact claimed,fun _ _ r mem => (nomatch mem),nofun,trivial⟩
    exact halted_fits _
  | purgeManifest =>
    cases ran
    refine reads kept ⟨fits.claimed,fun _ is r mem => ?_,nofun,trivial⟩ nofun
    cases is
    obtain ⟨there,owner⟩ := mem_filter.mp mem
    exact ⟨of_decide_eq_true owner,fun _ => ⟨r,there,of_decide_eq_true owner,rfl⟩⟩
  | purgeList =>
    cases ran
    refine reads kept ⟨fits.claimed,fits.records,fun _ is object mem lists => ?_,trivial⟩ nofun
    cases is
    refine ⟨mem_listObjects.mpr ⟨mem,lists⟩,fun r among same => ?_⟩
    have safe := all_eq_true.mp spare object mem
    rw [lists,Bool.not_true,Bool.false_or] at safe
    have unlike := all_eq_true.mp safe r among
    simpa [same] using unlike
  | purgeArtifacts =>
    cases ran
    exact reads kept ⟨fits.claimed,fits.records,fits.cover,trivial⟩ nofun
  | purgeDerived tombstone manifest current rows =>
    cases ran
    refine reads kept ?_ nofun
    split
    · exact ⟨fits.claimed,fun _ _ r mem => (nomatch mem),nofun,trivial⟩
    rename_i open'
    refine go_fits (fits.claimed tombstone rfl) (fits.records tombstone rfl) fun object mem lists => ?_
    obtain ⟨among,unpurged⟩ := fits.cover tombstone rfl object mem lists
    obtain ⟨entry,gathered,same⟩ : ∃ entry ∈ gather current (listDerived s.objects rows), entry.object = object :=
      gather_holds (fun entry derived key => kept.single _ (listDerived_mem derived).1 _ mem key)
        ⟨⟨object,false,[]⟩,mem_map.mpr ⟨object,among,rfl⟩,rfl⟩
    have known := any_eq_false.mp (Bool.or_eq_false_iff.mp (Bool.eq_false_iff.mpr open')).2 entry gathered
    rw [Bool.not_eq_true,Bool.not_eq_false'] at known
    obtain ⟨r,recorded,equal⟩ := any_eq_true.mp known
    have same' : r.entry.object = object := (of_decide_eq_true equal).trans same
    exact ⟨r,recorded,unpurged r recorded same',same'⟩
  | purgeBlock tombstone =>
    cases ran
    have alike : ∀ row ∈ s.tombstones, row.id = tombstone.id → Alike s row (if row.restored then row else { row with purging := none }) := by
      intro row _ _
      split
      · exact .refl s row
      exact ⟨rfl,rfl,rfl,rfl,.inl rfl⟩
    exact writes (kept.update alike) (update_evolves alike) rfl (halted_fits _) nofun
  | purgeDelete tombstone recorded rest =>
    have called := Option.some.inj ran
    split at called
    · rename_i none'
      cases called
      refine reads kept ⟨fits.claimed,fits.records,fun _ is object mem lists => ?_,trivial⟩ nofun
      cases is
      have apart : object.key ≠ recorded.entry.object.key := fun same =>
        filter_eq_nil_iff.mp none' object mem (decide_eq_true same)
      obtain ⟨r,among,unpurged,same⟩ := fits.cover tombstone rfl object mem lists
      refine ⟨apart,?_⟩
      obtain rfl | later := mem_cons.mp among
      · exact absurd (congrArg Stored.key same.symm) apart
      exact ⟨r,later,unpurged,same⟩
    rename_i found others is
    split at called
    · rename_i same
      cases called
      have mem : recorded.entry.object ∈ s.objects := by
        rw [←same]
        exact (mem_filter.mp (is ▸ mem_cons_self)).1
      refine delete_owes kept fits ?_ mem
      have safe : ((s.tombstone tombstone.id).isSome || !s.objects.any (· = recorded.entry.object)) := spare
      rw [any_eq_true.mpr ⟨_,mem,decide_eq_true rfl⟩,Bool.not_true,Bool.or_false] at safe
      exact safe
    cases called
    exact reads kept ⟨fits.claimed,fun _ _ r mem => (nomatch mem),nofun,trivial⟩ nofun
  | purgeMark tombstone recorded =>
    cases ran
    have same : ∀ row : Recorded, (if row.tombstone = tombstone.id && row.entry.object.key = recorded.entry.object.key then { row with purged := true }
        else row).tombstone = row.tombstone ∧ (if row.tombstone = tombstone.id && row.entry.object.key = recorded.entry.object.key then
          { row with purged := true } else row).entry = row.entry := by
      intro row
      split <;> exact ⟨rfl,rfl⟩
    have evolves := marked_evolves (s := s) _ same
    have due := fits.claimed tombstone rfl
    refine writes (kept.marked _ same) evolves rfl (go_fits (due.carry evolves) (fun r mem => ?_) fun object mem lists => ?_) nofun
    · exact (fits.records tombstone rfl r (.tail _ mem)).carry due.1 evolves
    exact (fits.cover tombstone rfl object mem lists).2
  | purgePending =>
    cases ran
    refine reads kept ?_ nofun
    split
    · exact halted_fits _
    exact ⟨fits.claimed,fun _ _ r mem => (nomatch mem),fits.cover,trivial⟩
  | purgeThumbnails tombstone =>
    cases ran
    have evolves := Evolves.refl s
    have evolves' : Evolves s (s.removeThumbnailState tombstone.kind tombstone.physicalKey) none :=
      ⟨evolves.now,evolves.nextId,evolves.tombstones,evolves.manifest,evolves.objects⟩
    exact writes ⟨kept.keyed,kept.ids,kept.owned,kept.origins,kept.single,kept.gone⟩ evolves' rfl
      ⟨fun _ is => by cases is; exact (fits.claimed tombstone rfl).carry evolves',fun _ _ r mem => (nomatch mem),fits.cover,trivial⟩ nofun
  | purgeBatch =>
    cases ran
    exact batch_owes kept fits spare
  | _ =>
    cases ran
    refine reads kept ?_ nofun
    split <;> exact light_fits rfl rfl trivial

structure Sound (w : World) : Prop where
  kept : Kept w.store
  fits : ∀ pc ∈ w.flows, Fits w.store pc

theorem begun_sound (sound : Sound w) (pc : Pc) (fits : Fits w.store pc) : Sound (w.begin pc) :=
  ⟨sound.kept,fun q mem => by
    obtain old | new := mem_append.mp mem
    · exact sound.fits q old
    rw [mem_singleton.mp new]; exact fits⟩

theorem Kept.faithful {v : World} (kept : Kept v.store) : ∀ t ∈ v.store.tombstones, t.id ∈ v.store.deletedFor → t.restored = false :=
  fun t mem gone => ((kept.gone t.id gone).2 t mem rfl).1

theorem still_faithful {w v : World} (kept : Kept v.store) (objects : ∀ object ∈ w.store.objects, object ∈ v.store.objects)
    (other : ∀ index, action ≠ .reply index) : Faithful w v action :=
  ⟨fun object mem gone => absurd (objects object mem) gone,kept.faithful,fun index _ is => absurd is (other index)⟩

theorem next_sound {w v : World} (sound : Sound w) (spare : spared w action) (ran : next directoryOf w action = some v) : Sound v ∧ Faithful w v action := by
  have kept := sound.kept
  cases action with
  | crash =>
    obtain ⟨_,_,same⟩ := Option.map_eq_some_iff.mp ran
    subst same
    refine ⟨⟨kept,fun q mem => ?_⟩,still_faithful kept (fun _ mem => mem) nofun⟩
    obtain old | new := mem_or_eq_of_mem_set mem
    · exact sound.fits q old
    rw [new]; exact halted_fits _
  | reply =>
    obtain ⟨pc,here,called⟩ := Option.bind_eq_some_iff.mp ran
    obtain ⟨⟨t,_⟩,called',same⟩ := Option.map_eq_some_iff.mp called
    subst same
    have spare' : pc.spared w.store := by simpa [spared,here] using spare
    have owes := call_owes kept (sound.fits pc (mem_of_getElem? here)) spare' called'
    refine ⟨⟨owes.kept,fun q mem => ?_⟩,fun object mem gone => .inr (owes.objects object mem gone),owes.kept.faithful, fun index' tombstone is batch => ?_⟩
    · obtain old | new := mem_or_eq_of_mem_set mem
      · exact (sound.fits q old).carry owes.evolves nofun
      · rw [new]; exact owes.fits
    cases is
    cases here.symm.trans batch
    exact owes.rows tombstone rfl
  | upload object =>
    cases ran
    have evolves : Evolves w.store { w.store with objects := object :: w.store.objects.filter fun other => other.key ≠ object.key } (some object) := by
      refine ⟨Nat.le_refl _,Nat.le_refl _,fun row mem => .inr ⟨row,mem,same_tombstone row _⟩,fun row mem _ => ⟨row,mem,rfl,rfl⟩,fun other mem => ?_⟩
      obtain rfl | old := mem_cons.mp mem
      · exact .inr rfl
      exact .inl (mem_filter.mp old).1
    have kept' : Kept { w.store with objects := object :: w.store.objects.filter fun other => other.key ≠ object.key } := by
      refine ⟨kept.keyed,kept.ids,kept.owned,kept.origins,fun left leftIn right rightIn same => ?_,kept.gone⟩
      obtain rfl | left' := mem_cons.mp leftIn
      · obtain rfl | right' := mem_cons.mp rightIn
        · rfl
        · exact absurd same.symm (of_decide_eq_true (mem_filter.mp right').2)
      obtain rfl | right' := mem_cons.mp rightIn
      · exact absurd same (of_decide_eq_true (mem_filter.mp left').2)
      exact kept.single left (mem_filter.mp left').1 right (mem_filter.mp right').1 same
    refine ⟨⟨kept',fun q mem => (sound.fits q mem).carry evolves fun t listing other is => ?_⟩,fun other mem gone => .inl ⟨object,rfl,?_⟩, kept'.faithful,nofun⟩
    · cases is
      have free := all_eq_true.mp spare q mem
      rw [listing] at free
      simpa using free
    by_contra apart
    exact gone (.tail _ (mem_filter.mpr ⟨mem,decide_eq_true fun same => apart same.symm⟩))
  | note row =>
    cases ran
    have evolves : Evolves w.store (w.store.note row) none := by
      have same := Evolves.refl w.store
      cases row <;> exact ⟨same.now,same.nextId,same.tombstones,same.manifest,same.objects⟩
    have kept' : Kept (w.store.note row) := by
      cases row <;> exact ⟨kept.keyed,kept.ids,kept.owned,kept.origins,kept.single,kept.gone⟩
    refine ⟨⟨kept',fun q mem => (sound.fits q mem).carry evolves nofun⟩,still_faithful kept' (fun _ mem => ?_) nofun⟩
    cases row <;> exact mem
  | tick seconds =>
    cases ran
    have same := Evolves.refl w.store
    have kept' : Kept { w.store with now := w.store.now + seconds } :=
      ⟨kept.keyed,kept.ids,kept.owned,kept.origins,kept.single,fun id mem =>
        ⟨(kept.gone id mem).1,fun t there number => ⟨((kept.gone id mem).2 t there number).1,
          Nat.le_trans ((kept.gone id mem).2 t there number).2 (Nat.le_add_right _ _)⟩⟩⟩
    refine ⟨⟨kept',fun q mem => (sound.fits q mem).carry ⟨Nat.le_add_right _ _,same.nextId,same.tombstones,same.manifest,same.objects⟩ nofun⟩,
      still_faithful kept' (fun _ mem => mem) nofun⟩
  | _ =>
    cases ran
    exact ⟨begun_sound sound _ (light_fits rfl rfl trivial),still_faithful kept (fun _ mem => mem) nofun⟩

def Step (directoryOf : Key → Key) (w : World) (action : Action) (v : World) : Prop := next directoryOf w action = some v
def World.empty (now : Nat) : World := ⟨⟨now,0,[],[],[],[],[],[],[],[],[]⟩,[]⟩

theorem empty_sound : Sound (World.empty now) :=
  ⟨⟨nodup_nil,nofun,nofun,nofun,nofun,nofun⟩,nofun⟩

def previews (key : Key) : Key := ['p','/']++key++['/']
def replies (flow : Nat) (count : Nat) : List Action := replicate count (.reply flow)

def purged : List Action :=
  .upload ⟨['a'],1,1⟩ :: .note (.name ['a']) :: .delete ['a'] :: replies 0 8++.tick retention :: .purge 0 :: replies 1 10

def reached (actions : List Action) : World := (follow (next previews) (World.empty 0) actions).getD (World.empty 0)
def onward (actions : List Action) (action : Action) : World := (next previews (reached actions) action).getD (World.empty 0)

def descendant : List Action :=
  .upload ⟨['a'],1,1⟩ :: .upload ⟨['a','/','b'],2,1⟩ :: .note (.name ['a','/','b']) :: .delete ['a'] :: replies 0 8 ++
    .tick retention :: .purge 0 :: replies 1 10

def overtaken : List Action :=
  .upload ⟨['a'],1,1⟩ :: .delete ['a'] :: replies 0 8++.tick retention :: .purge 0 :: replies 1 6++.tick purgeLease :: .purge 0 :: replies 2 11 ++
    [.upload ⟨['a'],1,1⟩]

def lateRestore : List Action :=
  .upload ⟨['d','/','y'],2,1⟩ :: .upload ⟨['d','/','x'],1,1⟩ :: .delete ['d'] :: replies 0 9++.restore 0 :: replies 1 1 ++
    .tick retention :: .purge 0 :: replies 2 8++.upload ⟨['d','/','y'],3,1⟩ :: replies 2 2

end LedgeTopOps.TrashPurge
