import LedgeTopOps.StorageApplication

namespace LedgeTopOps.StorageLifecycle
open List KeyedRows StepRuns

variable {e next : Entity} {id : Nat}

theorem completed_id (m : Mutation) : m.completed.id = m.id := by
  unfold Mutation.completed
  split
  · rfl
  rfl

theorem failed_id (m : Mutation) : m.failed.id = m.id := by
  unfold Mutation.failed
  split
  · rfl
  rfl

theorem amend_completed (m : Mutation) (status : m.status = .fsApplied) : m.completed = { m with status := .complete } :=
  if_pos status

theorem only_pending (journal : Journal given e (some m)) (mem : other ∈ e.mutations) (different : other.id ≠ m.id) : ¬other.active := by
  intro active
  cases (journal.pending other).mpr ⟨mem,active⟩
  exact different rfl

theorem Journal.finished (journal : Journal given e (some m)) (status : m.status = .fsApplied)
    (mutations : next.mutations = (e.amend m.id Mutation.completed).mutations)
    (items : Keyed TrashItem.id next.trash) (known : ∀ item ∈ next.trash, item.id < next.issued)
    (others : ∀ other ∈ e.mutations, other.id ≠ m.id → Row given next other)
    (own : Row given next { m with status := .complete }) (bare : given = false → Bare next) : Journal given next none := by
  have rows := fun other => journal.mem_amend other Mutation.completed journal.member
  rw [amend_completed m status] at rows
  refine ⟨?_,items,known,?_,?_,bare⟩
  · rw [mutations]
    exact journal.keyed.amend _ fun row _ _ => completed_id row
  · intro other mem
    rw [mutations] at mem
    rcases (rows other).mp mem with old | rfl
    · exact others other old.1 old.2
    exact own
  intro other
  refine ⟨nofun,fun found => ?_⟩
  obtain ⟨mem,active⟩ := found
  rw [mutations] at mem
  rcases (rows other).mp mem with old | rfl
  · exact (only_pending journal old.1 old.2 active).elim
  cases active

theorem complete_trash (status original : Status) (journal : Journal given e (some m))
    (applied : m.status = .fsApplied) (kind : m.type = .trash) (standing : e.status ≠ .trashed) (items : NoItem e)
    (draft : given = false → status = .trashed ∧ original = .draft) :
    Journal given ({ e with status := status, trash := e.trash++[TrashItem.mk m.trashId m.destination original false] }.amend m.id
      Mutation.completed) none := by
  have row := journal.row rfl
  obtain ⟨source,its,destination,unposted⟩ := row.trashes kind
  have fresh : ∀ item ∈ e.trash, item.id ≠ m.trashId := unposted (by rw [applied]; nofun)
  refine journal.finished applied rfl (journal.items.add fresh) ?_ ?_ ?_ ?_
  · intro item mem
    rcases mem_snoc.mp mem with old | rfl
    · exact journal.known item old
    have known := row.known
    show m.trashId < e.issued
    omega
  · intro other mem different
    have there := journal.rows other mem
    refine ⟨there.known,?_,?_,there.restores,?_,there.absent⟩
    · intro type
      obtain ⟨home,theirs,place,apart⟩ := there.trashes type
      refine ⟨home,theirs,place,fun incomplete item found => ?_⟩
      rcases mem_snoc.mp found with old | rfl
      · exact apart incomplete item old
      show m.trashId ≠ other.trashId
      omega
    · intro type
      obtain ⟨home,⟨item,backed,same⟩,-⟩ := there.others type
      refine ⟨home,⟨item,mem_append_left _ backed,same⟩,fun posted found equal active => ?_⟩
      rcases mem_snoc.mp found with old | rfl
      · cases active.symm.trans (items posted old)
      exact absurd (same.trans equal.symm) (fresh item backed)
    intro type
    exact ⟨(there.purges type).1,fun complete => absurd ((there.purges type).2 complete).1 standing⟩
  · refine ⟨row.known,fun _ => ⟨source,its,destination,fun incomplete => absurd rfl incomplete⟩,?_,?_,?_,?_⟩
    · exact fun other => absurd kind other
    · exact row.restores
    · exact fun other => nomatch kind.symm.trans other
    · exact fun absent => ⟨nofun,(row.absent absent).2⟩
  intro absent
  have bare := journal.bare absent
  refine ⟨bare.dataset,bare.files,bare.home,.inr (draft absent).1,?_,?_⟩
  · intro item found
    rcases mem_snoc.mp found with old | rfl
    · exact bare.items item old
    exact (draft absent).2
  intro other found type
  rcases (journal.mem_amend _ Mutation.completed journal.member).mp found with old | rfl
  · exact bare.mutations other old.1 type
  unfold Mutation.completed
  rw [if_pos applied]
  exact bare.mutations m journal.member kind

theorem mem_deleted : item ∈ (e.deleteTrash trashId).trash ↔
    (item ∈ e.trash ∧ item.id ≠ trashId) ∨ ∃ old ∈ e.trash, old.id = trashId ∧ { old with permanentlyDeleted := true } = item :=
  KeyedRows.mem_amend

theorem deleted_items (trashId : Nat) (items : ∀ item ∈ e.trash, item.permanentlyDeleted = false → item.id = trashId) : NoItem (e.deleteTrash trashId) := by
  intro item found
  rcases mem_deleted.mp found with ⟨old,different⟩ | ⟨old,-,-,rfl⟩
  · cases active : item.permanentlyDeleted with
    | true => rfl
    | false => exact absurd (items item old active) different
  rfl

theorem deleted_ids (trashId : Nat) : (e.deleteTrash trashId).trash.map TrashItem.id = e.trash.map TrashItem.id :=
  KeyedRows.amend_map _ _ _ _ _ fun _ _ _ => rfl

theorem mem_ids {items others : List TrashItem} (same : items.map TrashItem.id = others.map TrashItem.id) :
    (∃ item ∈ items, item.id = id) → ∃ item ∈ others, item.id = id := by
  intro found
  obtain ⟨item,mem,equal⟩ := found
  have there : id ∈ items.map TrashItem.id := mem_map.mpr ⟨item,mem,equal⟩
  rw [same] at there
  exact mem_map.mp there

theorem complete_delete {status : Status} (journal : Journal given e (some m)) (applied : m.status = .fsApplied)
    (kind : m.type ≠ .trash) (items : ∀ item ∈ e.trash, item.permanentlyDeleted = false → item.id = m.trashId)
    (own : m.type = .purge → status = .trashed) (others : ∀ other ∈ e.mutations, other.type = .purge → other.status = .complete → status = .trashed)
    (bare : given = false → status = .draft ∨ status = .trashed) :
    Journal given (({ e with status := status }.deleteTrash m.trashId).amend m.id Mutation.completed) none := by
  have row := journal.row rfl
  have none_ : NoItem ({ e with status := status }.deleteTrash m.trashId) := deleted_items m.trashId items
  have ids : ({ e with status := status }.deleteTrash m.trashId).trash.map TrashItem.id = e.trash.map TrashItem.id := deleted_ids ..
  obtain ⟨source,backed,-⟩ := row.others kind
  refine journal.finished applied rfl ?_ ?_ ?_ ?_ ?_
  · exact journal.items.amend _ fun _ _ _ => rfl
  · intro item found
    obtain ⟨old,there,same⟩ := mem_ids ids ⟨item,found,rfl⟩
    rw [←same]
    exact journal.known old there
  · intro other mem _
    have there := journal.rows other mem
    refine ⟨there.known,?_,?_,there.restores,?_,there.absent⟩
    · intro type
      obtain ⟨home,theirs,place,apart⟩ := there.trashes type
      refine ⟨home,theirs,place,fun incomplete item found => ?_⟩
      obtain ⟨old,posted,same⟩ := mem_ids ids ⟨item,found,rfl⟩
      rw [←same]
      exact apart incomplete old posted
    · intro type
      obtain ⟨home,posted,-⟩ := there.others type
      exact ⟨home,mem_ids ids.symm posted,fun item found _ active => nomatch active.symm.trans (none_ item found)⟩
    intro type
    exact ⟨(there.purges type).1,fun complete => ⟨others other mem type complete,none_⟩⟩
  · refine ⟨row.known,fun other => absurd other kind,?_,row.restores,?_,?_⟩
    · exact fun _ => ⟨source,mem_ids ids.symm backed,fun item found _ active => nomatch active.symm.trans (none_ item found)⟩
    · exact fun type => ⟨nofun,fun _ => ⟨own type,none_⟩⟩
    · exact fun absent => ⟨nofun,(row.absent absent).2⟩
  intro absent
  have there := journal.bare absent
  refine ⟨there.dataset,there.files,there.home,bare absent,?_,?_⟩
  · intro item found
    rcases mem_deleted.mp found with old | ⟨old,posted,-,rfl⟩
    · exact there.items item old.1
    exact there.items old posted
  intro other found type
  rcases (journal.mem_amend _ Mutation.completed journal.member).mp found with old | rfl
  · exact there.mutations other old.1 type
  rw [amend_completed m applied] at type
  exact absurd type kind

theorem restored_status (item : Option TrashItem) : restoredStatus e item ≠ .trashed := by
  unfold restoredStatus
  split <;> nofun

theorem insertTrash_fresh (e : Entity) (fresh : ∀ other ∈ e.trash, other.id ≠ item.id) (items : NoItem e) :
    e.insertTrash item = { e with trash := e.trash++[item] } := by
  unfold Entity.insertTrash
  rw [if_neg]
  intro clash
  obtain ⟨other,mem,equal⟩ := any_eq_true.mp clash
  rcases Bool.or_eq_true_iff.mp equal with same | active
  · exact fresh other mem (of_decide_eq_true same)
  rw [items other mem] at active
  cases active

theorem insertTrash_places (e : Entity) (item : TrashItem) : (e.insertTrash item).home = e.home ∧ (e.insertTrash item).bin = e.bin ∧
    (e.insertTrash item).issued = e.issued := by
  unfold Entity.insertTrash
  split
  · exact ⟨rfl,rfl,rfl⟩
  exact ⟨rfl,rfl,rfl⟩

theorem completed_places (m : Mutation) (e : Entity) : (completed m e).home = e.home ∧ (completed m e).bin = e.bin ∧ (completed m e).issued = e.issued := by
  unfold completed
  split
  · split
    · exact insertTrash_places _ _
    · exact insertTrash_places _ _
  · exact ⟨rfl,rfl,rfl⟩
  exact ⟨rfl,rfl,rfl⟩

theorem only_posted (posted : next.trash = e.trash++[item]) (items : NoItem e) (active : item.permanentlyDeleted = false) : OnlyItem next item := by
  unfold OnlyItem
  rw [posted]
  refine ⟨mem_append_right _ (mem_singleton_self _),active,fun other found kept => ?_⟩
  rcases mem_append.mp found with old | new
  · cases kept.symm.trans (items other old)
  exact mem_singleton.mp new

theorem posted_situation (items : NoItem e)
    (active : item.permanentlyDeleted = false) (its : item.relativePath = path given item.id) (had : status ≠ .trashed → given) :
    Situation given ({ e with status := status, trash := e.trash++[item] }.amend id change) none (expected given (.trash item.id)) := by
  by_cases trashed : status = .trashed
  · exact .trashed trashed (only_posted rfl items active) its
  cases had trashed
  exact .limbo trashed (only_posted rfl items active) rfl

section
variable (journal : Journal given e (some m)) (situation : Situation given e (some m) location) (status : m.status = .fsApplied)
include journal situation status

theorem trash_completed (kind : m.type = .trash) : Journal given ((completed m e).amend m.id Mutation.completed) none ∧
      Situation given ((completed m e).amend m.id Mutation.completed) none location := by
  rcases situation.applied status with ⟨-,here,its⟩ | ⟨other,-⟩ | ⟨other,-⟩
  · rcases situation.moving (by rw [kind]; nofun) with ⟨-,standing,items,-,-⟩ | ⟨other,-⟩
    · have fresh := ((journal.row rfl).trashes kind).2.2.2 (by rw [status]; nofun)
      unfold completed
      rw [kind,here]
      dsimp only
      split
      · have trashed := complete_trash .trashed (m.originalStatus.getD e.status) journal status kind
          standing items ?_
        · rw [insertTrash_fresh { e with status := .trashed } fresh items]
          exact ⟨trashed,posted_situation items rfl its fun other => absurd rfl other⟩
        · intro absent
          refine ⟨rfl,?_⟩
          rw [(journal.bare absent).mutations m journal.member kind]
          rfl
      rename_i output
      have had := output_given journal output
      have posted := complete_trash (if e.status = .archived then .trashed else e.status)
        (m.originalStatus.getD .archived) journal status kind standing items fun absent => nomatch had.symm.trans absent
      rw [insertTrash_fresh { e with status := if e.status = .archived then .trashed else e.status } fresh items]
      exact ⟨posted,posted_situation items rfl its fun _ => had⟩
    · cases kind.symm.trans other
  · cases kind.symm.trans other
  cases kind.symm.trans other

theorem restore_completed (kind : m.type = .restore) : Journal given ((completed m e).amend m.id Mutation.completed) none ∧
      Situation given ((completed m e).amend m.id Mutation.completed) none location := by
  rcases situation.applied status with ⟨other,-⟩ | ⟨-,here⟩ | ⟨other,-⟩
  · cases kind.symm.trans other
  · have posted : (∀ item ∈ e.trash, item.permanentlyDeleted = false → item.id = m.trashId) ∧
        (∀ other ∈ e.mutations, other.type = .purge → other.status ≠ .complete) := by
      have rows : (e.status = .trashed → ∃ item ∈ e.trash, item.permanentlyDeleted = false) →
          ∀ other ∈ e.mutations, other.type = .purge → other.status ≠ .complete := by
        intro backed other mem type complete
        obtain ⟨trashed,items⟩ := ((journal.rows other mem).purges type).2 complete
        obtain ⟨item,posted,active⟩ := backed trashed
        cases active.symm.trans (items item posted)
      cases situation with
      | trashing other | purging other => cases kind.symm.trans other
      | restoring _ _ items same _ _ =>
        refine ⟨fun other mem active => ?_,rows fun _ => ⟨_,items.1,items.2.1⟩⟩
        rw [items.2.2 other mem active]
        exact same
      | restored _ standing items =>
        exact ⟨fun item mem active => absurd (active.symm.trans (items item mem)) nofun,rows fun trashed => absurd trashed standing⟩
    have left : e.status ≠ .trashed ∨ given ∨ restoredStatus e (e.getTrash m.trashId) = .draft := by
      cases given with
      | true => exact .inr (.inl rfl)
      | false =>
        have bare := journal.bare rfl
        obtain ⟨item,posted,same⟩ := ((journal.row rfl).others (by rw [kind]; nofun)).2.1
        have found : e.getTrash m.trashId = some item := by
          rw [←same]
          exact journal.items.find posted
        refine .inr (.inr ?_)
        unfold restoredStatus
        rw [found,bare.dataset]
        simp only [Option.map_some,bare.items item posted]
    have kept : (if e.status = .trashed then restoredStatus e (e.getTrash m.trashId) else e.status) ≠ .trashed := by
      split
      · exact restored_status _
      assumption
    unfold completed
    rw [kind,here]
    refine ⟨complete_delete journal status (by rw [kind]; nofun) posted.1 ?_ ?_ ?_,.present kept (deleted_items m.trashId posted.1)⟩
    · exact fun other => nomatch kind.symm.trans other
    · exact fun other mem type complete => absurd complete (posted.2 other mem type)
    intro absent
    split
    · rename_i trashed
      rcases left with other | had | draft
      · exact absurd trashed other
      · cases absent.symm.trans had
      exact .inl draft
    rename_i other
    exact .inl ((journal.bare absent).status.resolve_right other)
  · cases kind.symm.trans other

theorem purge_completed (kind : m.type = .purge) : Journal given ((completed m e).amend m.id Mutation.completed) none ∧
      Situation given ((completed m e).amend m.id Mutation.completed) none location := by
  obtain ⟨standing,⟨_,items,same,-⟩,-⟩ := situation.removing kind
  have posted : ∀ other ∈ e.trash, other.permanentlyDeleted = false → other.id = m.trashId := by
    intro other mem active
    rw [items.2.2 other mem active]
    exact same
  rcases situation.applied status with ⟨other,-⟩ | ⟨other,-⟩ | ⟨-,here⟩
  · cases kind.symm.trans other
  · cases kind.symm.trans other
  unfold completed
  rw [kind,here]
  have mem : m.completed ∈ ({ e with status := e.status }.deleteTrash m.trashId |>.amend m.id Mutation.completed).mutations :=
    (journal.mem_amend _ Mutation.completed journal.member).mpr (.inr rfl)
  rw [amend_completed m status] at mem
  refine ⟨?_,.purged standing (deleted_items m.trashId posted) mem kind rfl⟩
  exact complete_delete journal status (by rw [kind]; nofun) posted (fun _ => standing) (fun _ _ _ _ => standing) (fun _ => .inr standing)
end

variable (journal : Journal given e pending) (resides : Resides e (Damaged pending) location) (situation : Situation given e pending location)
include journal resides situation

theorem complete_sound (holding : Holding given e pending location ⟨id,.complete⟩) : Sound given ⟨completeStorageMutation id e,none⟩ := by
  obtain ⟨m,current,rfl,status⟩ := holding
  subst current
  have settle : ∀ next : Entity, next.home = e.home → next.bin = e.bin → next.issued = e.issued →
      (m.type = .purge → location = none) → Resides next (Damaged none) location := by
    intro _ home bin issued gone
    refine ⟨?_,?_,?_,?_⟩
    · intro place here
      obtain ⟨whole,found,intact⟩ := resides.there place here
      refine ⟨whole,?_,.inl (intact.resolve_right ?_)⟩
      · cases place with
        | home => exact home.trans found
        | trash trashId => exact (congrFun bin trashId).trans found
        | blank => cases found
      intro damaged
      obtain ⟨_,same,kind⟩ := damaged
      cases same
      cases here.symm.trans (gone kind)
    · rw [bin]
      exact resides.bins
    · rw [home]
      exact resides.home
    rw [issued]
    exact resides.known
  have moved := completed_places m e
  have ended : Journal given ((completed m e).amend m.id Mutation.completed) none ∧
      Situation given ((completed m e).amend m.id Mutation.completed) none location := by
    rcases m.kinds with kind | kind | kind
    · exact trash_completed journal situation status kind
    · exact restore_completed journal situation status kind
    exact purge_completed journal situation status kind
  unfold completeStorageMutation
  rw [journal.found journal.member]
  dsimp only
  rw [if_pos status]
  refine ⟨none,location,ended.1,settle _ moved.1 moved.2.1 moved.2.2 ?_,ended.2,fun _ running => nomatch running⟩
  intro kind
  rcases situation.applied status with ⟨other,-⟩ | ⟨other,-⟩ | ⟨-,gone⟩
  · cases kind.symm.trans other
  · cases kind.symm.trans other
  exact gone

theorem fail_sound (holding : Holding given e pending location ⟨id,.fail⟩) : Sound given ⟨failStorageMutation id e,none⟩ := by
  obtain ⟨m,current,rfl,had,type,place⟩ := holding
  subst current had
  have row := journal.row rfl
  have active := journal.active
  have lost : m.failed = { m with status := .failed } := if_pos active
  have failed : Row true e m.failed := by
    rw [lost]
    refine ⟨row.known,?_,row.others,row.restores,fun other => absurd other type,nofun⟩
    intro kind
    obtain ⟨source,its,destination,unposted⟩ := row.trashes kind
    exact ⟨source,its,destination,fun _ => unposted (active_incomplete active)⟩
  have after := journal.amended Mutation.failed journal.member (.inr rfl) failed_id (by rw [lost]) (by rw [lost]) failed
  rw [lost] at after
  refine ⟨none,location,after,?_,?_,fun _ running => nomatch running⟩
  · refine ⟨?_,resides.bins,resides.home,resides.known⟩
    intro other here
    obtain ⟨whole,found,intact⟩ := resides.there other here
    refine ⟨whole,found,.inl (intact.resolve_right ?_)⟩
    intro damaged
    obtain ⟨_,same,kind⟩ := damaged
    cases same
    exact type kind
  have listed : m.failed ∈ (failStorageMutation m.id e).mutations :=
    (journal.mem_amend _ Mutation.failed journal.member).mpr (.inr rfl)
  rw [lost] at listed
  rcases situation.moving type with ⟨kind,standing,items,-,-⟩ | ⟨kind,-⟩
  · rcases place with home | ⟨-,trash,occupied⟩
    · rw [home,(row.trashes kind).1]
      exact .present standing items
    · rw [trash]
      have stuck : Situation true (failStorageMutation m.id e) none (some (.trash { m with status := .failed }.trashId)) :=
        .stuck standing items listed kind rfl occupied rfl
      exact stuck
  have source : m.source = .trash m.trashId := (row.others (by rw [kind]; nofun)).1
  have here : location = some (.trash m.trashId) := by
    rcases place with here | ⟨other,-⟩
    · exact here.trans (congrArg some source)
    cases kind.symm.trans other
  cases situation with
  | trashing other => cases kind.symm.trans other
  | @restoring _ item _ _ standing items same path _ =>
    rw [here,←same]
    exact .trashed standing items path
  | restored => cases here
  | purging other => exact absurd other type
end LedgeTopOps.StorageLifecycle
