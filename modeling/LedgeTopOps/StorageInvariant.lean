import LedgeTopOps.StorageLifecycle

namespace LedgeTopOps.StorageLifecycle
open KeyedRows StepRuns

def expected (given : Bool) (place : Place) : Option Place := if given then some place else none
def path (given : Bool) (trashId : Nat) : Place := if given then .trash trashId else .blank
def NoItem (e : Entity) : Prop := ∀ item ∈ e.trash, item.permanentlyDeleted = true

def OnlyItem (e : Entity) (item : TrashItem) : Prop :=
  item ∈ e.trash ∧ item.permanentlyDeleted = false ∧ ∀ other ∈ e.trash, other.permanentlyDeleted = false → other = item

def Content (e : Entity) (place : Place) : Prop := ∃ whole, e.at place = some (.content whole)
def Occupied (e : Entity) : Prop := ∃ empty, e.home = some (.unrelated empty)

structure Resides (e : Entity) (damaged : Prop) (location : Option Place) : Prop where
  there : ∀ place, location = some place → ∃ whole, e.at place = some (.content whole) ∧ (whole = true ∨ damaged)
  bins : ∀ id, location ≠ some (.trash id) → e.bin id = none
  home : location ≠ some .home → ∀ whole, e.home ≠ some (.content whole)
  known : ∀ id, location = some (.trash id) → id < e.issued

structure Row (given : Bool) (e : Entity) (m : Mutation) : Prop where
  known : m.id+2 ≤ e.issued
  trashes : m.type = .trash → m.source = .home ∧ m.trashId = m.id+1 ∧
    (m.destination = .trash m.trashId ∨ given = false ∧ m.destination = .blank) ∧
    (m.status ≠ .complete → ∀ item ∈ e.trash, item.id ≠ m.trashId)
  others : m.type ≠ .trash → m.source = path given m.trashId ∧ (∃ item ∈ e.trash, item.id = m.trashId) ∧
    ∀ item ∈ e.trash, item.id = m.trashId → item.permanentlyDeleted = false → e.status = .trashed
  restores : m.type = .restore → m.destination = .home ∨ given = false ∧ m.destination = .blank
  purges : m.type = .purge → m.status ≠ .failed ∧ (m.status = .complete → e.status = .trashed ∧ NoItem e)
  absent : given = false → m.status ≠ .failed ∧ (m.type ≠ .purge → m.allowAbsentSource = true)

structure Bare (e : Entity) : Prop where
  dataset : e.entityType = .dataset
  files : e.fileCount = 0
  home : e.home = none
  status : e.status = .draft ∨ e.status = .trashed
  items : ∀ item ∈ e.trash, item.originalStatus = .draft
  mutations : ∀ m ∈ e.mutations, m.type = .trash → m.originalStatus = some .draft

structure Journal (given : Bool) (e : Entity) (pending : Option Mutation) : Prop where
  keyed : Keyed Mutation.id e.mutations
  items : Keyed TrashItem.id e.trash
  known : ∀ item ∈ e.trash, item.id < e.issued
  rows : ∀ m ∈ e.mutations, Row given e m
  pending : ∀ m, pending = some m ↔ m ∈ e.mutations ∧ m.active = true
  bare : given = false → Bare e

inductive Situation (given : Bool) (e : Entity) : Option Mutation → Option Place → Prop where
  | present (status : e.status ≠ .trashed) (items : NoItem e) : Situation given e none (expected given .home)
  -- A trash mutation has failed after its move, as a directory was made at the home path.
  | stuck (status : e.status ≠ .trashed) (items : NoItem e) (member : m ∈ e.mutations) (type : m.type = .trash)
      (failed : m.status = .failed) (occupied : Occupied e) (had : given = true) :
      Situation given e none (some (.trash m.trashId))
  | trashed (status : e.status = .trashed) (items : OnlyItem e item) (path : item.relativePath = path given item.id) :
      Situation given e none (expected given (.trash item.id))
  -- A trash mutation of an output that was not archived when it was retried.
  | limbo (status : e.status ≠ .trashed) (items : OnlyItem e item) (had : given = true) :
      Situation given e none (some (.trash item.id))
  | purged (status : e.status = .trashed) (items : NoItem e) (member : m ∈ e.mutations) (type : m.type = .purge)
      (complete : m.status = .complete) : Situation given e none none
  | trashing (type : m.type = .trash) (status : e.status ≠ .trashed) (items : NoItem e)
      (place : location = expected given .home ∧ m.status = .intent ∨ location = expected given (.trash m.trashId))
      (applied : m.status = .fsApplied → m.destination = path given m.trashId) : Situation given e (some m) location
  | restoring (type : m.type = .restore) (status : e.status = .trashed) (items : OnlyItem e item) (same : item.id = m.trashId)
      (path : item.relativePath = path given item.id)
      (place : location = expected given (.trash m.trashId) ∧ m.status = .intent ∨ location = expected given .home) :
      Situation given e (some m) location
  | restored (type : m.type = .restore) (status : e.status ≠ .trashed) (items : NoItem e) (had : given = true) :
      Situation given e (some m) (some .home)
  | purging (type : m.type = .purge) (status : e.status = .trashed) (items : OnlyItem e item) (same : item.id = m.trashId)
      (path : item.relativePath = path given item.id)
      (place : location = expected given (.trash m.trashId) ∧ m.status = .intent ∨ location = none) :
      Situation given e (some m) location

def Arrived (given : Bool) (location : Option Place) (m : Mutation) (destination : Place) : Prop :=
  match m.type with
  | .trash => location = expected given (.trash m.trashId) ∧ destination = path given m.trashId
  | .restore => location = expected given .home ∧ (destination = .home ∨ given = false ∧ destination = .blank)
  | .purge => location = none ∧ destination = m.destination

def Holding (given : Bool) (e : Entity) (pending : Option Mutation) (location : Option Place) (run : Run) : Prop :=
  let intent (m : Mutation) : Prop := pending = some m ∧ m.id = run.id ∧ m.status = .intent
  let applied (m : Mutation) : Prop := pending = some m ∧ m.id = run.id ∧ m.status = .fsApplied
  match run.phase with
  | .read => True
  | .source m => intent m ∧ m.type ≠ .purge
  | .destination m sourceExists => intent m ∧ m.type ≠ .purge ∧ (sourceExists = false → location ≠ some m.source) ∧
      (sourceExists = true → location = some m.source ∨ m.type = .trash ∧ location = some (.trash m.trashId) ∧ Occupied e)
  | .move m | .rename m => intent m ∧ m.type ≠ .purge ∧ location = some m.source
  | .remaining m | .remove m => intent m ∧ m.type = .purge
  | .mark m destination => intent m ∧ Arrived given location m destination
  | .reread | .complete => ∃ m, applied m
  | .verifySource m => applied m ∧ m.type ≠ .purge
  | .verifyDestination m sourceExists => applied m ∧ m.type ≠ .purge ∧ (sourceExists = true → m.type = .trash ∧ Occupied e ∧ given = true)
  | .verifyRemoved m => applied m ∧ m.type = .purge
  | .fail => ∃ m, pending = some m ∧ m.id = run.id ∧ given = true ∧ m.type ≠ .purge ∧
      (location = some m.source ∨ m.type = .trash ∧ location = some (.trash m.trashId) ∧ Occupied e)

def Damaged (pending : Option Mutation) : Prop := ∃ m, pending = some m ∧ m.type = .purge

structure Inv (given : Bool) (p : Process) (pending : Option Mutation) (location : Option Place) : Prop where
  journal : Journal given p.entity pending
  resides : Resides p.entity (Damaged pending) location
  situation : Situation given p.entity pending location
  holding : ∀ run, p.running = some run → Holding given p.entity pending location run

section
variable {pending : Option Mutation} {id : Nat}

theorem Journal.existing_none (journal : Journal given e pending) (none_ : e.existing = none) : pending = none := by
  cases pending with
  | none => rfl
  | some m =>
    obtain ⟨mem,active⟩ := (journal.pending m).mp rfl
    exact absurd active (List.find?_eq_none.mp none_ m mem)

theorem Journal.found (journal : Journal given e pending) (mem : m ∈ e.mutations) : e.getStorageMutation m.id = some m :=
  journal.keyed.find mem

theorem Journal.member (journal : Journal given e (some m)) : m ∈ e.mutations := ((journal.pending m).mp rfl).1

theorem Journal.row (journal : Journal given e pending) (current : pending = some m) : Row given e m := by
  subst current
  exact journal.rows m journal.member

theorem Row.same {other : Entity} (row : Row given e m) (issued : e.issued ≤ other.issued) (trash : other.trash = e.trash)
    (status : other.status = e.status) : Row given other m := by
  refine ⟨Nat.le_trans row.known issued,?_,?_,row.restores,?_,row.absent⟩
  · rw [trash]
    exact row.trashes
  · rw [trash,status]
    exact row.others
  unfold NoItem
  rw [trash,status]
  exact row.purges

theorem Journal.mem_amend (journal : Journal given e pending) (other : Mutation) (change : Mutation → Mutation) (mem : m ∈ e.mutations) :
    other ∈ (e.amend m.id change).mutations ↔ (other ∈ e.mutations ∧ other.id ≠ m.id) ∨ other = change m := by
  refine KeyedRows.mem_amend.trans ⟨?_,?_⟩
  · intro found
    rcases found with rest | ⟨old,there,same,new⟩
    · exact .inl rest
    cases journal.keyed.unique there mem same
    exact .inr new.symm
  intro found
  rcases found with rest | rfl
  · exact .inl rest
  exact .inr ⟨m,mem,rfl,rfl⟩

theorem Journal.amended (journal : Journal given e pending) (change : Mutation → Mutation) (mem : m ∈ e.mutations)
    (alone : pending = none ∨ pending = some m) (kept : ∀ row, (change row).id = row.id)
    (type : (change m).type = m.type) (original : (change m).originalStatus = m.originalStatus) (row : Row given e (change m)) :
    Journal given (e.amend m.id change) (if (change m).active then some (change m) else none) := by
  have rows := fun other => journal.mem_amend other change mem
  refine ⟨journal.keyed.amend change fun row _ _ => kept row,journal.items,journal.known,?_,?_,?_⟩
  · intro other found
    rcases (rows other).mp found with rest | rfl
    · exact (journal.rows other rest.1).same (Nat.le_refl _) rfl rfl
    exact row.same (Nat.le_refl _) rfl rfl
  · intro other
    have inactive : ∀ other, other ∈ e.mutations → other.id ≠ m.id → other.active → False := by
      intro other there different active
      have current := (journal.pending other).mpr ⟨there,active⟩
      rcases alone with none_ | some_
      · cases none_.symm.trans current
      cases some_.symm.trans current
      exact different rfl
    rw [rows other]
    constructor
    · intro current
      split at current
      · rename_i active
        cases current
        exact ⟨.inr rfl,active⟩
      cases current
    intro found
    obtain ⟨there,active⟩ := found
    rcases there with rest | rfl
    · exact (inactive other rest.1 rest.2 active).elim
    rw [if_pos active]
  intro absent
  have bare := journal.bare absent
  refine ⟨bare.dataset,bare.files,bare.home,bare.status,bare.items,?_⟩
  intro other found trash
  rcases (rows other).mp found with rest | rfl
  · exact bare.mutations other rest.1 trash
  exact original.trans (bare.mutations m mem (type.symm.trans trash))

theorem Journal.inserted {type : MutationType} (journal : Journal given e none)
    (row : Row given (e.insert type trashId source destination original allowed) ⟨e.issued,type,trashId,source,destination,original,allowed,.intent⟩)
    (bare : given = false → type = .trash → original = some .draft) : Journal given (e.insert type trashId source destination original allowed)
      (some ⟨e.issued,type,trashId,source,destination,original,allowed,.intent⟩) := by
  have fresh : ∀ other ∈ e.mutations, other.id ≠ e.issued := by
    intro other mem
    have known := (journal.rows other mem).known
    omega
  refine ⟨journal.keyed.add fresh,journal.items,?_,?_,?_,?_⟩
  · intro item mem
    exact Nat.lt_of_lt_of_le (journal.known item mem) (Nat.le_add_right _ _)
  · intro other mem
    rcases mem_snoc.mp mem with old | rfl
    · exact (journal.rows other old).same (Nat.le_add_right _ _) rfl rfl
    exact row
  · intro other
    constructor
    · intro current
      cases current
      exact ⟨List.mem_append_right _ (List.mem_singleton_self _),rfl⟩
    intro found
    obtain ⟨mem,active⟩ := found
    rcases mem_snoc.mp mem with old | rfl
    · cases (journal.pending other).mpr ⟨old,active⟩
    rfl
  intro absent
  have there := journal.bare absent
  refine ⟨there.dataset,there.files,there.home,there.status,there.items,?_⟩
  intro other mem trash
  rcases mem_snoc.mp mem with old | rfl
  · exact there.mutations other old trash
  exact bare absent trash

theorem Resides.same {other : Entity} {damaged wider : Prop} (resides : Resides e damaged location) (home : other.home = e.home)
    (bin : other.bin = e.bin) (issued : e.issued ≤ other.issued) (weaken : damaged → wider) : Resides other wider location := by
  have reads : ∀ place, other.at place = e.at place := by
    intro place
    cases place with
    | home => exact home
    | trash id => exact congrFun bin id
    | blank => rfl
  refine ⟨?_,?_,?_,fun id there => Nat.lt_of_lt_of_le (resides.known id there) issued⟩
  · intro place there
    obtain ⟨whole,found,intact⟩ := resides.there place there
    exact ⟨whole,(reads place).trans found,intact.imp_right weaken⟩
  · rw [bin]
    exact resides.bins
  rw [home]
  exact resides.home

theorem Resides.inTrash (resides : Resides e damaged (some (.trash id))) : InTrash e := by
  obtain ⟨whole,found,-⟩ := resides.there _ rfl
  exact ⟨id,whole,found⟩

theorem Resides.content (resides : Resides e damaged location) {place : Place} : Content e place ↔ location = some place := by
  constructor
  · intro content
    obtain ⟨whole,found⟩ := content
    cases place with
    | home =>
      by_contra different
      exact resides.home different whole found
    | trash id =>
      by_contra different
      have empty := resides.bins id different
      cases found.symm.trans empty
    | blank => cases found
  intro here
  obtain ⟨whole,found,-⟩ := resides.there place here
  exact ⟨whole,found⟩
end

def Resting (given : Bool) (e : Entity) : Prop := ∃ pending location, Inv given ⟨e,none⟩ pending location

theorem Resting.intro {pending : Option Mutation} (journal : Journal given e pending)
    (resides : Resides e (Damaged pending) location) (situation : Situation given e pending location) : Resting given e :=
  ⟨pending,location,journal,resides,situation,fun _ found => nomatch found⟩

theorem undamaged : ¬Damaged none := fun damaged => by
  obtain ⟨m,found,-⟩ := damaged
  cases found

theorem insert_trash {original : Option Status} {allowed : Bool} (journal : Journal given e none) (status : e.status ≠ .trashed)
    (items : NoItem e) (resides : Resides e (Damaged none) (expected given .home)) (bare : given = false → original = some .draft ∧ allowed) :
    Resting given (e.insert .trash (e.issued+1) .home (.trash (e.issued+1)) original allowed) := by
  have unposted : ∀ item ∈ e.trash, item.id ≠ e.issued+1 := by
    intro item mem
    have known := journal.known item mem
    omega
  refine Resting.intro (journal.inserted ?_ fun absent _ => (bare absent).1)
    (resides.same rfl rfl (Nat.le_add_right _ _) fun damaged => (undamaged damaged).elim)
    (.trashing rfl status items (.inl ⟨rfl,rfl⟩) nofun)
  refine ⟨Nat.le_refl _,fun _ => ⟨rfl,rfl,.inl rfl,fun _ => unposted⟩,?_,?_,?_,?_⟩
  · exact fun other => absurd rfl other
  · exact fun other => nomatch other
  · exact fun other => nomatch other
  exact fun absent => ⟨nofun,fun _ => (bare absent).2⟩

theorem Situation.opened (situation : Situation given e none location) (status : e.status ≠ .trashed)
    (resides : Resides e (Damaged none) location) (apart : ¬InTrash e) : NoItem e ∧ location = expected given .home := by
  cases situation with
  | present _ items => exact ⟨items,rfl⟩
  | stuck | limbo => exact absurd resides.inTrash apart
  | trashed trashed | purged trashed => exact absurd trashed status

theorem beginTrash_resting (inv : Inv given ⟨e,none⟩ pending location)
    (apart : e.existing = none → e.status ≠ .trashed → ¬InTrash e) : Resting given (beginTrashMutation unreferenced e) := by
  unfold beginTrashMutation
  split
  · exact ⟨pending,location,inv⟩
  rename_i idle
  cases inv.journal.existing_none idle
  split
  · rename_i allowed
    obtain ⟨items,here⟩ := inv.situation.opened allowed.2.1 inv.resides (apart idle allowed.2.1)
    refine insert_trash inv.journal allowed.2.1 items (here ▸ inv.resides) fun absent => ?_
    have bare := inv.journal.bare absent
    have draft : e.status = .draft := bare.status.resolve_right allowed.2.1
    refine ⟨congrArg some draft,?_⟩
    exact Bool.and_eq_true_iff.mpr ⟨decide_eq_true draft,decide_eq_true bare.files⟩
  exact ⟨none,location,inv⟩

theorem archive_journal (journal : Journal given e none) (had : given) (ready : e.status ≠ .trashed) : Journal given { e with status := .archived } none := by
  refine ⟨journal.keyed,journal.items,journal.known,?_,journal.pending,fun absent => nomatch had.symm.trans absent⟩
  intro other mem
  have row := journal.rows other mem
  refine ⟨row.known,row.trashes,?_,row.restores,?_,row.absent⟩
  · intro type
    obtain ⟨source,backed,asked⟩ := row.others type
    exact ⟨source,backed,fun item there same active => absurd (asked item there same active) ready⟩
  intro type
  exact ⟨(row.purges type).1,fun complete => absurd ((row.purges type).2 complete).1 ready⟩

theorem output_given (journal : Journal given e pending) (output : e.entityType = .output) : given := by
  cases given with
  | true => rfl
  | false =>
    have bare := (journal.bare rfl).dataset
    cases output.symm.trans bare

theorem beginOutputTrash_resting (inv : Inv given ⟨e,none⟩ pending location) (apart : e.existing = none → e.status ≠ .trashed → ¬InTrash e) :
    Resting given (beginOutputTrashMutation unused originalStatus archiveInactiveReady unpublished e) := by
  have still : Resting given e := ⟨pending,location,inv⟩
  unfold beginOutputTrashMutation
  split
  · exact still
  rename_i idle
  cases inv.journal.existing_none idle
  split
  · rename_i allowed
    have had := output_given inv.journal allowed.1
    unfold archived
    split
    · exact still
    rename_i further found
    have moved : further = e ∨ further = { e with status := .archived } ∧ e.status = .ready := by
      split at found
      · rename_i ready
        split at found
        · cases found
          exact .inr ⟨rfl,ready.2⟩
        cases found
      cases found
      exact .inl rfl
    split
    · rename_i now
      rcases moved with rfl | ⟨rfl,ready⟩
      · have status : further.status ≠ .trashed := by
          rw [now]
          nofun
        obtain ⟨items,here⟩ := inv.situation.opened status inv.resides (apart idle status)
        exact insert_trash inv.journal status items (here ▸ inv.resides) fun absent => nomatch had.symm.trans absent
      have status : e.status ≠ .trashed := by
        rw [ready]
        nofun
      obtain ⟨items,here⟩ := inv.situation.opened status inv.resides (apart idle status)
      refine insert_trash (archive_journal inv.journal had status) nofun items ?_ fun absent => nomatch had.symm.trans absent
      exact (here ▸ inv.resides).same rfl rfl (Nat.le_refl _) fun damaged => (undamaged damaged).elim
    rename_i other
    rcases moved with rfl | ⟨rfl,-⟩
    · exact still
    exact absurd rfl other
  exact still

theorem insert_other {item : TrashItem} {type : MutationType} {destination : Place} {allowed : Bool}
    (journal : Journal given e none) (status : e.status = .trashed) (items : OnlyItem e item)
    (sameplace : item.relativePath = path given item.id) (kind : type = .restore ∧ destination = .home ∨ type = .purge ∧ destination = .blank)
    (absent : given = false → type = .restore → allowed) : Journal given (e.insert type item.id item.relativePath destination none allowed)
      (some ⟨e.issued,type,item.id,item.relativePath,destination,none,allowed,.intent⟩) := by
  have notTrash : type ≠ .trash := by
    intro same
    rcases kind with ⟨other,-⟩ | ⟨other,-⟩
    · cases same.symm.trans other
    cases same.symm.trans other
  refine journal.inserted ?_ fun _ same => absurd same notTrash
  refine ⟨Nat.le_refl _,fun same => absurd same notTrash,?_,?_,?_,?_⟩
  · exact fun _ => ⟨sameplace,⟨item,items.1,rfl⟩,fun _ _ _ _ => status⟩
  · intro same
    rcases kind with ⟨-,home⟩ | ⟨other,-⟩
    · exact .inl home
    cases same.symm.trans other
  · exact fun _ => ⟨nofun,nofun⟩
  intro bare
  refine ⟨nofun,fun notPurge => ?_⟩
  rcases kind with ⟨restore,-⟩ | ⟨purge,-⟩
  · exact absent bare restore
  exact absurd purge notPurge

theorem Situation.reopened {item : TrashItem} {trashId : Nat} (situation : Situation given e none location)
    (status : e.status = .trashed) (found : e.getTrash trashId = some item) (kept : ¬item.permanentlyDeleted) :
    item.id = trashId ∧ OnlyItem e item ∧ item.relativePath = path given item.id ∧ location = expected given (.trash item.id) := by
  obtain ⟨mem,same⟩ := find_some found
  have active : item.permanentlyDeleted = false := Bool.eq_false_iff.mpr kept
  cases situation with
  | present other | stuck other | limbo other => exact absurd status other
  | trashed _ items relative =>
    cases items.2.2 item mem active
    exact ⟨same,items,relative,rfl⟩
  | purged _ items => exact absurd (items item mem) kept

section
variable {trashId : Nat} {idle : Bool} {pending : Option Mutation} (inv : Inv given ⟨e,none⟩ pending location)
include trashId idle pending inv

theorem beginRestore_resting : Resting given (beginRestoreMutation trashId idle e) := by
  have still : Resting given e := ⟨pending,location,inv⟩
  unfold beginRestoreMutation
  split
  · exact still
  rename_i item found
  split
  · exact still
  rename_i kept
  split
  · exact still
  rename_i alone
  cases inv.journal.existing_none alone
  split
  · rename_i allowed
    obtain ⟨rfl,items,relative,here⟩ := inv.situation.reopened allowed.1 found kept
    refine Resting.intro (insert_other inv.journal allowed.1 items relative (.inl ⟨rfl,rfl⟩) ?_)
      (inv.resides.same rfl rfl (Nat.le_add_right _ _) fun damaged => (undamaged damaged).elim)
      (.restoring rfl allowed.1 items rfl relative (.inl ⟨here,rfl⟩))
    intro absent _
    refine Bool.and_eq_true_iff.mpr ⟨decide_eq_true (inv.journal.bare absent).dataset,decide_eq_true ?_⟩
    rw [relative,absent]
    rfl
  exact still

theorem beginPurge_resting : Resting given (beginPurgeMutation trashId idle e) := by
  have still : Resting given e := ⟨pending,location,inv⟩
  unfold beginPurgeMutation
  split
  · exact still
  rename_i item found
  split
  · exact still
  rename_i kept
  split
  · exact still
  rename_i alone
  cases inv.journal.existing_none alone
  split
  · rename_i allowed
    obtain ⟨rfl,items,relative,here⟩ := inv.situation.reopened allowed.1 found kept
    exact Resting.intro (insert_other inv.journal allowed.1 items relative (.inr ⟨rfl,rfl⟩) fun _ same => nomatch same)
      (inv.resides.same rfl rfl (Nat.le_add_right _ _) fun damaged => (undamaged damaged).elim)
      (.purging rfl allowed.1 items rfl relative (.inl ⟨here,rfl⟩))
  exact still
end

section
variable (row : Row given e m) (failed : m.status = .failed)
include row failed

theorem Row.had : given := by
  cases given with
  | true => rfl
  | false => exact absurd failed (row.absent rfl).1

theorem Row.paths (here : location = some m.source ∨ location = some m.destination) :
    (m.type = .trash ∧ (location = some .home ∨ location = some (.trash m.trashId))) ∨
      (m.type = .restore ∧ (location = some .home ∨ location = some (.trash m.trashId))) := by
  have had := row.had failed
  cases type : m.type with
  | trash =>
    obtain ⟨source,-,destination,-⟩ := row.trashes type
    refine .inl ⟨rfl,?_⟩
    rcases destination with trash | ⟨absent,-⟩
    · rw [source,trash] at here
      exact here
    cases had.symm.trans absent
  | restore =>
    obtain ⟨source,-,-⟩ := row.others (by rw [type]; nofun)
    refine .inr ⟨rfl,?_⟩
    rcases row.restores type with home | ⟨absent,-⟩
    · rw [source,home,had] at here
      exact here.symm
    cases had.symm.trans absent
  | purge => exact absurd failed (row.purges type).1

theorem Row.reopened : Row given e m.reopened := by
  refine ⟨row.known,fun type => ?_,row.others,row.restores,fun type => absurd failed (row.purges type).1,?_⟩
  · obtain ⟨source,trashId,destination,unposted⟩ := row.trashes type
    refine ⟨source,trashId,destination,fun _ => unposted ?_⟩
    rw [failed]
    nofun
  exact fun absent => absurd failed (row.absent absent).1
end

theorem Situation.retried (situation : Situation given e none location) (journal : Journal given e none)
    (mem : m ∈ e.mutations) (failed : m.status = .failed) (here : location = some m.source ∨ location = some m.destination) :
    Situation given (e.amend m.id Mutation.reopened) (some m.reopened) location := by
  have row := journal.rows m mem
  have had := row.had failed
  have paths := row.paths failed here
  have unposted : m.type = .trash → ∀ item ∈ e.trash, item.id ≠ m.trashId := fun type =>
    (row.trashes type).2.2.2 (by rw [failed]; nofun)
  have named : ∀ {id other}, some (Place.trash id) = some .home ∨ some (Place.trash id) = some (.trash other) → id = other := by
    rintro id other (home | same)
    · cases home
    · cases same
      rfl
  subst had
  cases situation with
  | present status items =>
    rcases paths with ⟨type,-⟩ | ⟨type,-⟩
    · exact .trashing type status items (.inl ⟨rfl,rfl⟩) nofun
    exact .restored type status items rfl
  | @stuck old status items there kind lost occupied _ =>
    rcases paths with ⟨type,place⟩ | ⟨type,place⟩
    · refine .trashing type status items (.inr ?_) nofun
      exact congrArg (fun id => some (Place.trash id)) (named place)
    obtain ⟨item,posted,same⟩ := (row.others (by rw [type]; nofun)).2.1
    have unposted := ((journal.rows old there).trashes kind).2.2.2 (by rw [lost]; nofun) item posted
    exact absurd (same.trans (named place).symm) unposted
  | @trashed item status items relative =>
    rcases paths with ⟨type,place⟩ | ⟨type,place⟩
    · have equal := named place
      exact absurd equal (unposted type item items.1)
    have equal := named place
    exact .restoring type status items equal relative (.inl ⟨congrArg (fun id => some (Place.trash id)) equal,rfl⟩)
  | @limbo item status items _ =>
    rcases paths with ⟨type,place⟩ | ⟨type,place⟩
    · have equal := named place
      exact absurd equal (unposted type item items.1)
    have equal := named place
    exact absurd ((row.others (by rw [type]; nofun)).2.2 item items.1 equal items.2.1) status
  | purged =>
    rcases here with none_ | none_
    · cases none_
    cases none_

theorem retry_resting {id : Nat} (inv : Inv given ⟨e,none⟩ pending location)
    (still : ∀ m, e.getStorageMutation id = some m → m.status = .failed → e.existing = none →
      Content e m.source ∨ Content e m.destination) : Resting given (retryStorageMutation id e) := by
  have unchanged : Resting given e := ⟨pending,location,inv⟩
  unfold retryStorageMutation
  split
  · rename_i m found alone
    split
    · rename_i failed
      cases inv.journal.existing_none alone
      obtain ⟨mem,rfl⟩ := find_some found
      have row := inv.journal.rows m mem
      have here : location = some m.source ∨ location = some m.destination := by
        rcases still m found failed alone with source | destination
        · exact .inl (inv.resides.content.mp source)
        exact .inr (inv.resides.content.mp destination)
      have journal : Journal given (e.amend m.id Mutation.reopened) (some m.reopened) :=
        inv.journal.amended _ mem (.inl rfl) (fun _ => rfl) rfl rfl (row.reopened failed)
      exact Resting.intro journal (inv.resides.same rfl rfl (Nat.le_refl _) fun damaged => (undamaged damaged).elim)
        (inv.situation.retried inv.journal mem failed here)
    exact unchanged
  exact unchanged
end LedgeTopOps.StorageLifecycle
