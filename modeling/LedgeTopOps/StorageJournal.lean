import LedgeTopOps.StorageReplay

namespace LedgeTopOps.StorageLifecycle
open List KeyedRows StepRuns Function

abbrev Store (ι : Type*) := ι → Process

inductive StoreEvent (ι : Type*) where
  | entity (i : ι) (event : Event)
  | crash

section
variable {ι : Type*} [DecidableEq ι]

def storeStep (store : Store ι) : StoreEvent ι → Store ι
  | .entity i event => update store i (step (store i) event)
  | .crash => fun i => step (store i) .crash

-- Other processes make a directory at an entity's home only while its content is in the trash.
def Environment (store : Store ι) : StoreEvent ι → Prop
  | .entity i event => Admitted (store i) event
  | .crash => True

-- Trashing begins with the content not in the trash; a failed mutation is retried with the content at one of its two
-- paths.
def Careful (store : Store ι) : StoreEvent ι → Prop
  | .entity i event => Heeded (store i) event
  | .crash => True

def StoreStep : Store ι → StoreEvent ι → Store ι → Prop := Guarded (fun s event t => storeStep s event = t) Environment

-- An entity before its first mutation. A draft without files may have no directory.
structure Initial (given : Bool) (p : Process) : Prop where
  mutations : p.entity.mutations = []
  trash : p.entity.trash = []
  status : p.entity.status ≠ .trashed
  bin : ∀ id, p.entity.bin id = none
  home : p.entity.home = if given then some (.content true) else none
  draft : given = false → p.entity.entityType = .dataset ∧ p.entity.fileCount = 0 ∧ p.entity.status = .draft
  idle : p.running = none

-- The lifecycle of every entity along a run: its state at the end, content and purges along every step, the mutations
-- applied again.
structure Lifecycle (given : ι → Bool) (history : List (Transition (Store ι) (StoreEvent ι))) (final : Store ι) : Prop where
  kept : ∀ i, Kept (given i) (final i).entity
  content : ∀ taken ∈ history, ∀ i place whole, (taken.before i).entity.at place = some (.content whole) →
    Removing (taken.before i) ∨ ∃ other, (taken.after i).entity.at other = some (.content whole)
  purged : ∀ taken ∈ history, ∀ i, Purged (taken.after i).entity → (final i).entity.status = .trashed
  replayed : ∀ i same id events p, Runs (Guarded (fun s event t => step s event = t) fun _ => Own same id)
    ⟨(final i).entity,none⟩ events p →
    applyStorageMutation same id p.entity = applyStorageMutation same id (final i).entity ∧ (applyStorageMutation same id p.entity).running = none

theorem initial_sound (initial : Initial given p) : Sound given p := by
  obtain ⟨e,_⟩ := p
  obtain ⟨mutations,trash,status,bin,home,draft,idle⟩ := initial
  subst idle
  have none_ : NoItem e := by
    unfold NoItem
    rw [trash]
    exact forall_mem_nil _
  have still : ∀ ran, (none : Option Run) = some ran → False := by
    intro _ same
    cases same
  refine ⟨none,expected given .home,⟨?_,?_,?_,?_,?_,?_⟩,⟨?_,?_,?_,?_⟩,.present status none_,fun ran same => (still ran same).elim⟩
  · rw [mutations]
    exact nodup_nil
  · rw [trash]
    exact nodup_nil
  · rw [trash]
    exact forall_mem_nil _
  · rw [mutations]
    exact forall_mem_nil _
  · intro m
    rw [mutations]
    refine ⟨fun found => ?_,fun found => (not_mem_nil found.1).elim⟩
    cases found
  · intro absent
    obtain ⟨dataset,files,drafted⟩ := draft absent
    refine ⟨dataset,files,?_,.inl drafted,?_,?_⟩
    · rw [home,absent]
      rfl
    · rw [trash]
      exact forall_mem_nil _
    rw [mutations]
    exact forall_mem_nil _
  · intro _ here
    cases given with
    | false => cases here
    | true =>
      cases here
      exact ⟨true,home,.inl rfl⟩
  · exact fun id _ => bin id
  · intro away _ found
    cases given with
    | true => exact away rfl
    | false => cases home.symm.trans found
  intro _ here
  cases given <;> cases here

theorem storeStep_entity (store : Store ι) (event : StoreEvent ι) (i : ι) (environment : Environment store event)
    (careful : Careful store event) : storeStep store event i = store i ∨
      ∃ own, storeStep store event i = step (store i) own ∧ Admitted (store i) own ∧ Heeded (store i) own := by
  cases event with
  | crash => exact .inr ⟨.crash,rfl,trivial,trivial⟩
  | entity j own =>
    by_cases same : i = j
    · subst same
      exact .inr ⟨own,update_self ..,environment,careful⟩
    exact .inl (update_of_ne same ..)

variable {given : ι → Bool} {origin final : Store ι} {history : List (Transition (Store ι) (StoreEvent ι))}

section
variable {s t : Store ι} {event : StoreEvent ι} (sound : ∀ i, Sound (given i) (s i)) (taken : Guarded StoreStep Careful s event t)
include s t event sound taken

theorem store_sound (i : ι) : Sound (given i) (t i) := by
  obtain ⟨⟨rfl,environment⟩,careful⟩ := taken
  rcases storeStep_entity s event i environment careful with still | ⟨own,moved,admitted,heeded⟩
  · rw [still]
    exact sound i
  rw [moved]
  exact step_sound (sound i) admitted heeded

theorem store_keeps (found : (s i).entity.at place = some (.content whole)) : Removing (s i) ∨ ∃ other, (t i).entity.at other = some (.content whole) := by
  obtain ⟨⟨rfl,environment⟩,careful⟩ := taken
  rcases storeStep_entity s event i environment careful with still | ⟨own,moved,-⟩
  · rw [still]
    exact .inr ⟨place,found⟩
  rw [moved]
  exact step_keeps (sound i) found

theorem store_purged (purged : Purged (s i).entity) : Purged (t i).entity := by
  obtain ⟨⟨rfl,environment⟩,careful⟩ := taken
  rcases storeStep_entity s event i environment careful with still | ⟨own,moved,-⟩
  · rw [still]
    exact purged
  rw [moved]
  exact step_purged (sound i) purged
end

structure Along (given : ι → Bool) (history : List (Transition (Store ι) (StoreEvent ι))) (final : Store ι) : Prop where
  sound : ∀ i, Sound (given i) (final i)
  content : ∀ taken ∈ history, ∀ i place whole, (taken.before i).entity.at place = some (.content whole) →
    Removing (taken.before i) ∨ ∃ other, (taken.after i).entity.at other = some (.content whole)
  purged : ∀ taken ∈ history, ∀ i, Purged (taken.after i).entity → Purged (final i).entity

theorem store_along (initial : ∀ i, Initial (given i) (origin i))
    (path : Runs (Recorded (Guarded StoreStep Careful)) origin history final) : Along given history final := by
  refine path.preserves_history (Along given) ?_ ⟨fun i => initial_sound (initial i),nofun,nofun⟩
  intro _ s _ t along moved
  obtain ⟨rfl,rfl,moved⟩ := moved
  refine ⟨store_sound along.sound moved,?_,?_⟩
  · intro step mem i place whole found
    rcases mem_snoc.mp mem with old | rfl
    · exact along.content step old i place whole found
    exact store_keeps along.sound moved found
  intro step mem i purged
  rcases mem_snoc.mp mem with old | rfl
  · exact store_purged along.sound moved (along.purged step old i purged)
  exact purged
end

def dataset : Store Unit := fun _ => ⟨⟨.dataset,1,.finalized,some (.content true),fun _ => none,[],[],0⟩,none⟩

def worked (id calls : Nat) : List (StoreEvent Unit) :=
  .entity () (.apply id) :: replicate calls (.entity () (.advance .done))

def trashed : List (StoreEvent Unit) := .entity () (.beginTrash true) :: worked 0 10
def created : StoreEvent Unit := .entity () (.create false)
def purged : List (StoreEvent Unit) := .entity () (.beginPurge 1 true) :: worked 4 7
def refused : List (StoreEvent Unit) := created :: .entity () (.beginRestore 1 true) :: worked 2 4
def retry : StoreEvent Unit := .entity () (.retry 2)
def retried : List (StoreEvent Unit) := retry :: worked 2 8

theorem dataset_initial : ∀ i, Initial true (dataset i) :=
  fun _ => ⟨rfl,rfl,nofun,fun _ => rfl,rfl,nofun,rfl⟩

def revived : List (StoreEvent Unit) := trashed++refused++purged++retried

theorem environment_met : StepRuns.Admitted storeStep Environment dataset revived := by
  repeat first
    | exact trivial
    | refine ⟨trivial,?_⟩
    | refine ⟨⟨1,true,rfl⟩,?_⟩

def lost : List (StoreEvent Unit) := trashed++created :: .entity () (.beginPurge 1 true) :: worked 2 7

theorem lost_careful : StepRuns.Admitted storeStep (fun store event => Environment store event ∧ Careful store event) dataset lost := by
  repeat first
    | exact trivial
    | refine ⟨⟨trivial,trivial⟩,?_⟩
    | refine ⟨⟨trivial,fun _ _ _ away => ?_⟩,?_⟩
    | refine ⟨⟨⟨1,true,rfl⟩,trivial⟩,?_⟩
    | exact away.elim fun _ found => found.elim fun _ there => nomatch there

end LedgeTopOps.StorageLifecycle
