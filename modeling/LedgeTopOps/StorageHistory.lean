import LedgeTopOps.StorageCompletion

namespace LedgeTopOps.StorageLifecycle
open KeyedRows StepRuns Function

section
variable {id : Nat}

theorem Inv.stopped (inv : Inv given ⟨e,running⟩ pending location) : Inv given ⟨e,none⟩ pending location :=
  ⟨inv.journal,inv.resides,inv.situation,fun _ found => nomatch found⟩

theorem Inv.continued (inv : Inv given ⟨e,running⟩ pending location)
    (holding : ∀ phase, next = some phase → Holding given e pending location ⟨id,phase⟩) : Sound given ⟨e,next.map (Run.mk id)⟩ := by
  refine ⟨pending,location,inv.journal,inv.resides,inv.situation,fun run found => ?_⟩
  obtain ⟨phase,reached,rfl⟩ := Option.map_eq_some_iff.mp found
  exact holding phase reached

theorem advance_sound (inv : Inv given ⟨e,some ⟨id,phase⟩⟩ pending location) :
    Sound given ⟨(advance id e phase outcome).1,(advance id e phase outcome).2.map (Run.mk id)⟩ := by
  have holding := inv.holding _ rfl
  have journal : Journal given e pending := inv.journal
  have resides : Resides e (Damaged pending) location := inv.resides
  have situation : Situation given e pending location := inv.situation
  have stop : Sound given ⟨e,none⟩ := ⟨pending,location,inv.stopped⟩
  have next : ∀ {phase : Phase}, Holding given e pending location ⟨id,phase⟩ → Sound given ⟨e,some ⟨id,phase⟩⟩ := fun holds =>
    ⟨pending,location,journal,resides,situation,fun _ same => by cases same; exact holds⟩
  unfold advance
  split
  · rename_i m
    split
    · rename_i whole found
      exact damage_sound journal resides situation holding found
    exact stop
  · exact stop
  · exact stop
  · exact inv.continued fun _ reached => read_holding journal reached
  · exact next (source_holding journal resides situation holding)
  · exact next (destination_holding journal resides situation holding)
  · obtain ⟨⟨current,same,status⟩,type,here⟩ := holding
    split
    · split
      · exact next ⟨_,current,same,situation.had here,type,.inl here⟩
      · exact next ⟨⟨current,same,status⟩,type,here⟩
    exact stop
  · rename_i m _ _
    cases moved : renamed m e with
    | some => exact rename_sound journal resides situation holding moved
    | none => exact stop
  · exact next (remaining_holding journal resides situation holding)
  · exact remove_sound journal resides situation holding
  · exact mark_sound journal resides situation holding
  · exact next (reread_holding journal holding)
  · exact next (verifySource_holding journal resides situation holding)
  · exact next (verifyDestination_holding journal resides situation holding)
  · exact next (verifyRemoved_holding journal resides situation holding)
  · exact complete_sound journal resides situation holding
  · exact fail_sound journal resides situation holding

theorem Holding.weaken (holding : Holding given e pending location run) (occupied : Occupied e → Occupied next) : Holding given next pending location run := by
  obtain ⟨_,phase⟩ := run
  cases phase with
  | destination =>
    obtain ⟨intent,type,missing,found⟩ := holding
    exact ⟨intent,type,missing,fun there => (found there).imp_right fun stuck => ⟨stuck.1,stuck.2.1,occupied stuck.2.2⟩⟩
  | verifyDestination =>
    obtain ⟨applied,type,found⟩ := holding
    exact ⟨applied,type,fun there => ⟨(found there).1,occupied (found there).2.1,(found there).2.2⟩⟩
  | fail =>
    obtain ⟨m,current,same,had,type,place⟩ := holding
    exact ⟨m,current,same,had,type,place.imp_right fun stuck => ⟨stuck.1,stuck.2.1,occupied stuck.2.2⟩⟩
  | _ => exact holding

theorem Situation.weaken (situation : Situation given e pending location) (mutations : next.mutations = e.mutations)
    (trash : next.trash = e.trash) (status : next.status = e.status) (occupied : Occupied e → Occupied next) : Situation given next pending location := by
  have none_ : NoItem e → NoItem next := by
    unfold NoItem
    rw [trash]
    exact id
  have only : ∀ {item}, OnlyItem e item → OnlyItem next item := by
    unfold OnlyItem
    rw [trash]
    exact id
  cases situation with
  | present standing items => exact .present (by rw [status]; exact standing) (none_ items)
  | stuck standing items mem type failed there had =>
    exact .stuck (by rw [status]; exact standing) (none_ items) (by rw [mutations]; exact mem) type failed (occupied there) had
  | trashed standing items path => exact .trashed (status.trans standing) (only items) path
  | limbo standing items had => exact .limbo (by rw [status]; exact standing) (only items) had
  | purged standing items mem type complete =>
    exact .purged (status.trans standing) (none_ items) (by rw [mutations]; exact mem) type complete
  | trashing type standing items place applied =>
    exact .trashing type (by rw [status]; exact standing) (none_ items) place applied
  | restoring type standing items same path place => exact .restoring type (status.trans standing) (only items) same path place
  | restored type standing items had => exact .restored type (by rw [status]; exact standing) (none_ items) had
  | purging type standing items same path place => exact .purging type (status.trans standing) (only items) same path place

theorem create_sound (inv : Inv given ⟨e,running⟩ pending location) (away : InTrash e) : Sound given ⟨{ e with home := some (.unrelated empty) },running⟩ := by
  obtain ⟨trashId,whole,found⟩ := away
  have here : location = some (.trash trashId) := inv.resides.content.mp ⟨whole,found⟩
  have had := inv.situation.had here
  have occupied : Occupied { e with home := some (.unrelated empty) } := ⟨empty,rfl⟩
  refine ⟨pending,location,inv.journal.elsewhere had rfl rfl rfl rfl,?_,inv.situation.weaken rfl rfl rfl fun _ => occupied,?_⟩
  · refine ⟨?_,inv.resides.bins,fun _ _ => nofun,inv.resides.known⟩
    intro place there
    obtain ⟨intact,content,kept⟩ := inv.resides.there place there
    refine ⟨intact,?_,kept⟩
    cases place with
    | home => cases here.symm.trans there
    | trash | blank => exact content
  exact fun run ran => (inv.holding run ran).weaken fun _ => occupied

-- Trashing begins with the content not in the trash; a failed mutation is retried with the content at one of its two
-- paths.
def Heeded (p : Process) : Event → Prop
  | .beginTrash _ | .beginOutputTrash _ _ _ _ =>
    p.running = none → p.entity.existing = none → p.entity.status ≠ .trashed → ¬InTrash p.entity
  | .retry id => p.running = none → p.entity.existing = none → ∀ m, p.entity.getStorageMutation id = some m → m.status = .failed →
      Content p.entity m.source ∨ Content p.entity m.destination
  | _ => True

theorem idle_sound (sound : Sound given p)
    (resting : ∀ pending location, p.running = none → Inv given ⟨p.entity,none⟩ pending location → Resting given (change p.entity)) :
    Sound given (p.idle change) := by
  obtain ⟨e,running⟩ := p
  cases running with
  | some => exact sound
  | none =>
    obtain ⟨pending,location,inv⟩ := sound
    exact resting pending location rfl inv

theorem step_sound (sound : Sound given p) (admitted : Admitted p event) (heeded : Heeded p event) : Sound given (step p event) := by
  cases event with
  | beginTrash => exact idle_sound sound fun _ _ idle inv => beginTrash_resting inv (heeded idle)
  | beginOutputTrash =>
    exact idle_sound sound fun _ _ idle inv => beginOutputTrash_resting inv (heeded idle)
  | beginRestore => exact idle_sound sound fun _ _ _ inv => beginRestore_resting inv
  | beginPurge => exact idle_sound sound fun _ _ _ inv => beginPurge_resting inv
  | retry => exact idle_sound sound fun _ _ idle inv => retry_resting inv fun m found failed alone => heeded idle alone m found failed
  | apply =>
    obtain ⟨e,running⟩ := p
    cases running with
    | some => exact sound
    | none =>
      obtain ⟨pending,location,inv⟩ := sound
      exact ⟨pending,location,inv.journal,inv.resides,inv.situation,fun run same => by cases same; trivial⟩
  | advance =>
    obtain ⟨e,running⟩ := p
    cases running with
    | none => exact sound
    | some =>
      obtain ⟨_,_,inv⟩ := sound
      exact advance_sound inv
  | crash =>
    obtain ⟨pending,location,inv⟩ := sound
    exact ⟨pending,location,inv.stopped⟩
  | create =>
    obtain ⟨e,running⟩ := p
    obtain ⟨pending,location,inv⟩ := sound
    unfold step
    dsimp only
    split
    · exact create_sound inv admitted
    exact ⟨pending,location,inv⟩
end

structure Kept (given : Bool) (e : Entity) : Prop where
  single : ∀ left ∈ e.mutations, ∀ right ∈ e.mutations, left.active = true → right.active = true → left = right
  onePlace : ∀ left right, Content e left → Content e right → left = right
  whole : given = true → (∃ place, e.at place = some (.content true)) ∨ ∃ m ∈ e.mutations, m.type = .purge ∧ m.status ≠ .failed
  bins : ∀ id empty, e.bin id ≠ some (.unrelated empty)
  applied : ∀ m ∈ e.mutations, m.type ≠ .purge → m.status = .fsApplied → given = true → Content e m.destination
  posted : ∀ item ∈ e.trash, item.permanentlyDeleted = false → e.existing = none → given = true → Content e (.trash item.id)
  purged : ∀ m ∈ e.mutations, m.type = .purge → m.status = .complete → e.status = .trashed ∧ ∀ place, ¬Content e place

variable {p : Process} {e : Entity} {m : Mutation} {id : Nat}

theorem Situation.gone (situation : Situation given e pending location) (status : e.status = .trashed) (items : NoItem e) : location = none := by
  have absurd_ : ∀ {item}, OnlyItem e item → False := fun only => nomatch only.2.1.symm.trans (items _ only.1)
  cases situation with
  | present standing | stuck standing | trashing _ standing | restored _ standing => exact absurd status standing
  | trashed _ only | limbo _ only | restoring _ _ only | purging _ _ only => exact (absurd_ only).elim
  | purged => rfl

theorem Situation.emptied (journal : Journal true e pending) (situation : Situation true e pending none) :
    ∃ m ∈ e.mutations, m.type = .purge ∧ m.status ≠ .failed := by
  generalize missing : (none : Option Place) = location at situation
  cases situation with
  | purged _ _ mem type _ => exact ⟨_,mem,type,((journal.rows _ mem).purges type).1⟩
  | trashing _ _ _ place | restoring _ _ _ _ _ place => rcases place with ⟨same,-⟩ | same <;> cases missing.trans same
  | purging type _ _ _ _ _ => exact ⟨_,journal.member,type,((journal.row rfl).purges type).1⟩
  | _ => cases missing

theorem Situation.item {item : TrashItem} (situation : Situation true e none location) (posted : item ∈ e.trash)
    (active : item.permanentlyDeleted = false) : location = some (.trash item.id) := by
  have absurd_ : NoItem e → False := fun items => nomatch active.symm.trans (items item posted)
  cases situation with
  | present _ items | stuck _ items | purged _ items => exact (absurd_ items).elim
  | trashed _ only => rw [only.2.2 item posted active]; rfl
  | limbo _ only => rw [only.2.2 item posted active]

theorem Sound.kept (sound : Sound given p) : Kept given p.entity := by
  obtain ⟨_,location,inv⟩ := sound
  have journal := inv.journal
  have resides := inv.resides
  have situation := inv.situation
  refine ⟨?_,?_,?_,?_,?_,?_,?_⟩
  · intro left first right second active other
    have one := (journal.pending left).mpr ⟨first,active⟩
    have two := (journal.pending right).mpr ⟨second,other⟩
    exact Option.some.inj (one.symm.trans two)
  · intro _ _ first second
    exact Option.some.inj ((resides.content.mp first).symm.trans (resides.content.mp second))
  · rintro rfl
    cases location with
    | none => exact .inr (situation.emptied journal)
    | some place =>
      obtain ⟨_,found,intact⟩ := resides.there place rfl
      rcases intact with rfl | ⟨m,rfl,type⟩
      · exact .inl ⟨place,found⟩
      exact .inr ⟨m,journal.member,type,((journal.row rfl).purges type).1⟩
  · intro trashId _ found
    have here : location = some (.trash trashId) := resides.trash (existsAt_iff.mpr ⟨_,found⟩)
    obtain ⟨_,content,-⟩ := resides.there _ here
    cases found.symm.trans content
  · intro m mem type status had
    subst had
    cases (journal.pending m).mpr ⟨mem,by unfold Mutation.active; rw [status]; rfl⟩
    refine resides.content.mpr ?_
    rcases situation.applied status with ⟨-,here,destination⟩ | ⟨kind,here⟩ | ⟨kind,-⟩
    · rw [here,destination]
      rfl
    · rcases (journal.row rfl).restores kind with home | ⟨absent,-⟩
      · rw [here,home]
        rfl
      · cases absent
    exact absurd kind type
  · intro _ posted active alone had
    subst had
    cases journal.existing_none alone
    exact resides.content.mpr (situation.item posted active)
  intro m mem type complete
  obtain ⟨status,items⟩ := ((journal.rows m mem).purges type).2 complete
  refine ⟨status,fun place content => ?_⟩
  cases (resides.content.mp content).symm.trans (situation.gone status items)

def Entity.tree (e : Entity) : Option Node × (Nat → Option Node) := (e.home,e.bin)

theorem at_tree {next : Entity} (same : next.tree = e.tree) (place : Place) : next.at place = e.at place := by
  obtain ⟨home,bin⟩ := Prod.mk.inj same
  cases place with
  | home => exact home
  | trash id => exact congrFun bin id
  | blank => rfl

theorem beginTrash_tree (unreferenced : Bool) (e : Entity) : (beginTrashMutation unreferenced e).tree = e.tree := by
  unfold beginTrashMutation
  split
  · rfl
  split <;> rfl

theorem beginOutputTrash_tree (unused : Bool) (original : Status) (archiveInactiveReady unpublished : Bool) (e : Entity) :
    (beginOutputTrashMutation unused original archiveInactiveReady unpublished e).tree = e.tree := by
  unfold beginOutputTrashMutation archived
  split
  · rfl
  split
  · split
    · rfl
    · rename_i further found
      have same : further.tree = e.tree := by
        split at found
        · split at found
          · cases found
            rfl
          · cases found
        cases found
        rfl
      split
      · exact same
      exact same
  rfl

theorem beginRestore_tree (trashId : Nat) (idle : Bool) (e : Entity) : (beginRestoreMutation trashId idle e).tree = e.tree := by
  unfold beginRestoreMutation
  split
  · rfl
  split
  · rfl
  split
  · rfl
  split <;> rfl

theorem beginPurge_tree (trashId : Nat) (idle : Bool) (e : Entity) : (beginPurgeMutation trashId idle e).tree = e.tree := by
  unfold beginPurgeMutation
  split
  · rfl
  split
  · rfl
  split
  · rfl
  split <;> rfl

theorem retry_tree (id : Nat) (e : Entity) : (retryStorageMutation id e).tree = e.tree := by
  unfold retryStorageMutation
  split
  · split <;> rfl
  rfl

theorem complete_tree (id : Nat) (e : Entity) : (completeStorageMutation id e).tree = e.tree := by
  unfold completeStorageMutation
  split
  · rfl
  split
  · rename_i m _ _
    obtain ⟨home,bin,-⟩ := completed_places m e
    exact congrArg₂ Prod.mk home bin
  rfl

theorem at_put (e : Entity) (named : place ≠ .blank) (node : Option Node) : (e.put place node).at place = node := by
  cases place with
  | home => rfl
  | trash => exact update_self ..
  | blank => exact absurd rfl named

theorem at_put_other (e : Entity) (different : other ≠ place) (node : Option Node) : (e.put place node).at other = e.at other := by
  cases place with
  | blank => rfl
  | home =>
    cases other with
    | home => exact absurd rfl different
    | trash | blank => rfl
  | trash =>
    cases other with
    | home | blank => rfl
    | trash => exact update_of_ne (fun same => different (congrArg Place.trash same)) ..

theorem renamed_keeps (moved : renamed m e = some next) (apart : m.source ≠ m.destination)
    (named : m.destination ≠ .blank) (found : e.at place = some (.content whole)) : ∃ other, next.at other = some (.content whole) := by
  obtain ⟨node,there,vacant,rfl⟩ : ∃ node, e.at m.source = some node ∧ (∀ intact, e.at m.destination ≠ some (.content intact)) ∧
      (e.put m.destination (some node)).put m.source none = next := by
    unfold renamed at moved
    split at moved
    · rename_i node there vacant
      cases moved
      exact ⟨node,there,fun _ same => (nomatch vacant.symm.trans same),rfl⟩
    · rename_i node there vacant
      cases moved
      exact ⟨node,there,fun _ same => (nomatch vacant.symm.trans same),rfl⟩
    cases moved
  by_cases here : place = m.source
  · subst here
    refine ⟨m.destination,?_⟩
    rw [at_put_other _ apart.symm,at_put _ named,←there]
    exact found
  refine ⟨place,?_⟩
  have different : place ≠ m.destination := by
    intro same
    rw [same] at found
    exact vacant whole found
  rw [at_put_other _ here,at_put_other _ different]
  exact found

theorem rename_apart (journal : Journal given e pending) (situation : Situation given e pending location)
    (holding : Holding given e pending location ⟨id,.rename m⟩) : m.source ≠ m.destination ∧ m.destination ≠ .blank := by
  obtain ⟨⟨current,-,-⟩,type,here⟩ := holding
  subst current
  have had := situation.had here
  have row := journal.row rfl
  subst had
  rcases m.kinds with kind | kind | kind
  · obtain ⟨source,-,destination,-⟩ := row.trashes kind
    rcases destination with trash | ⟨absent,-⟩
    · rw [source,trash]
      exact ⟨nofun,nofun⟩
    cases absent
  · have source := (row.others (by rw [kind]; nofun)).1
    rcases row.restores kind with home | ⟨absent,-⟩
    · rw [source,home]
      exact ⟨nofun,nofun⟩
    cases absent
  exact absurd kind type

theorem advance_tree (id : Nat) (e : Entity) (phase : Phase) (outcome : Outcome) : (advance id e phase outcome).1.tree = e.tree ∨ (∃ m, phase = .remove m) ∨
      ∃ m, phase = .rename m ∧ renamed m e = some (advance id e phase outcome).1 := by
  unfold advance
  split
  · exact .inr (.inl ⟨_,rfl⟩)
  · exact .inl rfl
  · exact .inl rfl
  · exact .inl rfl
  · exact .inl rfl
  · exact .inl rfl
  · split
    · split <;> exact .inl rfl
    · exact .inl rfl
  · split
    · rename_i moved
      exact .inr (.inr ⟨_,rfl,moved⟩)
    · exact .inl rfl
  · exact .inl rfl
  · exact .inr (.inl ⟨_,rfl⟩)
  · exact .inl rfl
  · exact .inl rfl
  · exact .inl rfl
  · exact .inl rfl
  · exact .inl rfl
  · exact .inl (complete_tree ..)
  · exact .inl rfl

def Removing (p : Process) : Prop := ∃ id m, p.running = some ⟨id,.remove m⟩ ∧ m.type = .purge

theorem step_keeps (sound : Sound given p) (found : p.entity.at place = some (.content whole)) :
    Removing p ∨ ∃ other, (step p event).entity.at other = some (.content whole) := by
  obtain ⟨e,running⟩ := p
  have still : ∀ {next : Process}, next.entity.tree = e.tree → ∃ other, next.entity.at other = some (.content whole) :=
    fun same => ⟨place,(at_tree same place).trans found⟩
  have idle : ∀ {change : Entity → Entity}, (change e).tree = e.tree → ∃ other, (Process.idle ⟨e,running⟩ change).entity.at other = some (.content whole) := by
    intro _ same
    cases running with
    | none => exact still same
    | some => exact still rfl
  obtain ⟨pending,location,inv⟩ := sound
  cases event with
  | beginTrash => exact .inr (idle (beginTrash_tree ..))
  | beginOutputTrash => exact .inr (idle (beginOutputTrash_tree ..))
  | beginRestore => exact .inr (idle (beginRestore_tree ..))
  | beginPurge => exact .inr (idle (beginPurge_tree ..))
  | retry => exact .inr (idle (retry_tree ..))
  | apply =>
    cases running with
    | none | some run => exact .inr (still rfl)
  | crash => exact .inr (still rfl)
  | create empty =>
    unfold step
    dsimp only
    split
    · rename_i vacant
      refine .inr ⟨place,?_⟩
      cases place with
      | home => cases vacant.symm.trans found
      | trash | blank => exact found
    exact .inr (still rfl)
  | advance outcome =>
    cases running with
    | none => exact .inr (still rfl)
    | some run =>
      obtain ⟨id,phase⟩ := run
      have holding := inv.holding _ rfl
      rcases advance_tree id e phase outcome with same | ⟨m,rfl⟩ | ⟨m,rfl,moved⟩
      · exact .inr (still same)
      · exact .inl ⟨id,m,rfl,holding.2⟩
      have apart := rename_apart inv.journal inv.situation holding
      exact .inr (renamed_keeps moved apart.1 apart.2 found)

def Purged (e : Entity) : Prop := ∃ m ∈ e.mutations, m.type = .purge ∧ m.status = .complete

theorem amend_complete (kept : ∀ row ∈ e.mutations, row.status = .complete → row.id = id → change row = row)
    (purged : Purged e) : Purged (e.amend id change) := by
  obtain ⟨m,mem,type,complete⟩ := purged
  refine ⟨m,mem_amend.mpr ?_,type,complete⟩
  by_cases same : m.id = id
  · exact .inr ⟨m,mem,same,kept m mem complete same⟩
  exact .inl ⟨mem,same⟩

theorem insert_purged (purged : Purged e) : Purged (e.insert type trashId source destination original allowed) := by
  obtain ⟨m,mem,facts⟩ := purged
  exact ⟨m,List.mem_append_left _ mem,facts⟩

theorem inactive_complete (complete : m.status = .complete) : m.active = false := by
  unfold Mutation.active
  rw [complete]
  rfl

theorem mark_purged (purged : Purged e) : Purged (markStorageMutationFsApplied id destination e) := by
  refine amend_complete (fun row _ complete _ => ?_) purged
  unfold Mutation.applied
  rw [inactive_complete complete]
  rfl

theorem fail_purged (purged : Purged e) : Purged (failStorageMutation id e) := by
  refine amend_complete (fun row _ complete _ => ?_) purged
  unfold Mutation.failed
  rw [inactive_complete complete]
  rfl

theorem insertTrash_mutations (e : Entity) (item : TrashItem) : (e.insertTrash item).mutations = e.mutations := by
  unfold Entity.insertTrash
  split <;> rfl

theorem completed_mutations (m : Mutation) (e : Entity) : (completed m e).mutations = e.mutations := by
  unfold completed
  split
  · split
    · exact insertTrash_mutations ..
    · exact insertTrash_mutations ..
  · rfl
  rfl

theorem complete_purged (purged : Purged e) : Purged (completeStorageMutation id e) := by
  unfold completeStorageMutation
  split
  · exact purged
  rename_i m _
  split
  · refine amend_complete (fun row _ complete _ => ?_) ?_
    · unfold Mutation.completed
      rw [complete]
      rfl
    · obtain ⟨old,mem,facts⟩ := purged
      refine ⟨old,?_,facts⟩
      rw [completed_mutations]
      exact mem
  exact purged

theorem retry_purged (keyed : Keyed Mutation.id e.mutations) (purged : Purged e) : Purged (retryStorageMutation id e) := by
  unfold retryStorageMutation
  split
  · rename_i m found _
    split
    · rename_i failed
      refine amend_complete (fun row mem complete same => ?_) purged
      obtain ⟨there,its⟩ := find_some found
      cases keyed.unique mem there (same.trans its.symm)
      cases failed.symm.trans complete
    exact purged
  exact purged

theorem begin_purged [Decidable allow] (purged : Purged e) : Purged (if allow then e.insert type trashId source destination original allowed else e) := by
  split
  · exact insert_purged purged
  exact purged

section
variable (purged : Purged e)
include purged

theorem beginTrash_purged : Purged (beginTrashMutation unreferenced e) := by
  unfold beginTrashMutation
  split
  · exact purged
  exact begin_purged purged

theorem beginOutputTrash_purged : Purged (beginOutputTrashMutation unused original archiveInactiveReady unpublished e) := by
  unfold beginOutputTrashMutation archived
  split
  · exact purged
  split
  · split
    · exact purged
    · rename_i further found
      refine begin_purged ?_
      split at found
      · split at found
        · cases found
          exact purged
        · cases found
      cases found
      exact purged
  exact purged

theorem beginRestore_purged : Purged (beginRestoreMutation trashId idle e) := by
  unfold beginRestoreMutation
  split
  · exact purged
  split
  · exact purged
  split
  · exact purged
  exact begin_purged purged

theorem beginPurge_purged : Purged (beginPurgeMutation trashId idle e) := by
  unfold beginPurgeMutation
  split
  · exact purged
  split
  · exact purged
  split
  · exact purged
  exact begin_purged purged

theorem put_purged : Purged (e.put place node) := by
  unfold Purged
  rw [put_mutations]
  exact purged

theorem advance_purged : Purged (advance id e phase outcome).1 := by
  unfold advance
  split
  · dsimp only
    split
    · exact put_purged purged
    exact purged
  · exact purged
  · exact purged
  · exact purged
  · exact purged
  · exact purged
  · split
    · split <;> exact purged
    · exact purged
  · split
    · rename_i moved
      unfold renamed at moved
      split at moved
      · cases moved
        exact put_purged (put_purged purged)
      · cases moved
        exact put_purged (put_purged purged)
      cases moved
    · exact purged
  · exact purged
  · exact put_purged purged
  · exact mark_purged purged
  · exact purged
  · exact purged
  · exact purged
  · exact purged
  · exact complete_purged purged
  · exact fail_purged purged
end

theorem idle_purged (purged : Purged p.entity) (kept : Purged (change p.entity)) : Purged (p.idle change).entity := by
  unfold Process.idle
  split
  · exact kept
  exact purged

theorem step_purged (sound : Sound given p) (purged : Purged p.entity) : Purged (step p event).entity := by
  cases event with
  | beginTrash => exact idle_purged purged (beginTrash_purged purged)
  | beginOutputTrash => exact idle_purged purged (beginOutputTrash_purged purged)
  | beginRestore => exact idle_purged purged (beginRestore_purged purged)
  | beginPurge => exact idle_purged purged (beginPurge_purged purged)
  | retry =>
    obtain ⟨_,_,inv⟩ := sound
    exact idle_purged purged (retry_purged inv.journal.keyed purged)
  | apply | create =>
    unfold step
    dsimp only
    split <;> exact purged
  | crash => exact purged
  | advance =>
    unfold step
    dsimp only
    split
    · exact purged
    exact advance_purged purged
end LedgeTopOps.StorageLifecycle
