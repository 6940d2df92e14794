import LedgeTopOps.StorageInvariant

namespace LedgeTopOps.StorageLifecycle
open KeyedRows StepRuns
open Function (update_of_ne update_self)

def Sound (given : Bool) (p : Process) : Prop := ∃ pending location, Inv given p pending location

section
variable {pending : Option Mutation} {id : Nat}

theorem existsAt_iff : existsAt e place ↔ ∃ node, e.at place = some node := Option.isSome_iff_exists

theorem Situation.had (situation : Situation given e pending location) (here : location = some place) : given := by
  cases given with
  | true => rfl
  | false =>
    cases situation with
    | stuck _ _ _ _ _ _ had | limbo _ _ had | restored _ _ _ had => exact had
    | trashing _ _ _ at_ | restoring _ _ _ _ _ at_ | purging _ _ _ _ _ at_ => rcases at_ with ⟨rfl,-⟩ | rfl <;> cases here
    | _ => cases here

section
variable (resides : Resides e damaged location)
include resides

theorem Resides.exists (here : location = some place) : existsAt e place := by
  obtain ⟨_,found,-⟩ := resides.there place here
  exact existsAt_iff.mpr ⟨_,found⟩

theorem Resides.trash (found : existsAt e (.trash trashId)) : location = some (.trash trashId) := by
  by_contra different
  have empty := resides.bins trashId different
  obtain ⟨_,there⟩ := existsAt_iff.mp found
  cases empty.symm.trans there

theorem Resides.atHome (found : existsAt e .home) : location = some .home ∨ Occupied e := by
  obtain ⟨node,there⟩ := existsAt_iff.mp found
  cases node with
  | content whole => exact .inl (resides.content.mp ⟨whole,there⟩)
  | unrelated empty => exact .inr ⟨empty,there⟩
end

theorem Journal.vacant (journal : Journal given e pending) (absent : given = false) : existsAt e .home = false := by
  show e.home.isSome = false
  rw [(journal.bare absent).home]
  rfl

theorem Situation.moving (situation : Situation given e (some m) location) (type : m.type ≠ .purge) : (m.type = .trash ∧ e.status ≠ .trashed ∧ NoItem e ∧
      (location = expected given .home ∧ m.status = .intent ∨ location = expected given (.trash m.trashId)) ∧
      (m.status = .fsApplied → m.destination = path given m.trashId)) ∨
    (m.type = .restore ∧ (location = expected given (.trash m.trashId) ∧ m.status = .intent ∨ location = expected given .home)) := by
  cases situation with
  | trashing kind status items place applied => exact .inl ⟨kind,status,items,place,applied⟩
  | restoring kind _ _ _ _ place => exact .inr ⟨kind,place⟩
  | restored kind _ _ had =>
    subst had
    exact .inr ⟨kind,.inr rfl⟩
  | purging kind => exact absurd kind type

section
variable (journal : Journal given e pending)
include journal

theorem read_holding (next : read id e = some phase) : Holding given e pending location ⟨id,phase⟩ := by
  unfold read at next
  split at next
  · cases next
  rename_i m found
  obtain ⟨mem,same⟩ := find_some found
  have current : m.active → pending = some m := fun active => (journal.pending m).mpr ⟨mem,active⟩
  split at next
  · cases next
  · cases next
  · rename_i status type
    cases next
    exact ⟨⟨current (by unfold Mutation.active; rw [status]; rfl),same,status⟩,type⟩
  · rename_i status type
    cases next
    exact ⟨⟨current (by unfold Mutation.active; rw [status]; rfl),same,status⟩,type⟩
  rename_i status
  cases next
  exact ⟨m,current (by unfold Mutation.active; rw [status]; rfl),same,status⟩

theorem source_holding (resides : Resides e (Damaged pending) location)
    (situation : Situation given e pending location) (holding : Holding given e pending location ⟨id,.source m⟩) :
    Holding given e pending location ⟨id,.destination m (existsAt e m.source)⟩ := by
  obtain ⟨⟨current,same,status⟩,type⟩ := holding
  refine ⟨⟨current,same,status⟩,type,?_,?_⟩
  · intro absent here
    rw [resides.exists here] at absent
    cases absent
  intro found
  subst current
  have row := journal.rows m journal.member
  rcases situation.moving type with ⟨kind,-,-,place,-⟩ | ⟨kind,-⟩
  · rw [(row.trashes kind).1] at found ⊢
    rcases resides.atHome found with home | occupied
    · exact .inl home
    cases given with
    | false =>
      rw [journal.vacant rfl] at found
      cases found
    | true =>
      rcases place with ⟨home,-⟩ | trash
      · exact .inl home
      exact .inr ⟨kind,trash,occupied⟩
  have source := (row.others (by rw [kind]; nofun)).1
  rw [source] at found ⊢
  cases given with
  | false => cases found
  | true => exact .inl (resides.trash found)

theorem destination_holding (resides : Resides e (Damaged pending) location) (situation : Situation given e pending location)
    (holding : Holding given e pending location ⟨id,.destination m sourceExists⟩) :
    Holding given e pending location ⟨id,decided m sourceExists (existsAt e m.destination)⟩ := by
  obtain ⟨⟨current,same,status⟩,type,missing,found⟩ := holding
  subst current
  have row := journal.rows m journal.member
  have allowed : given = false → m.allowAbsentSource := fun absent => (row.absent absent).2 type
  have marking : ∀ destination, Arrived given location m destination →
      Holding given e (some m) location ⟨id,.mark m destination⟩ := fun _ facts => ⟨⟨rfl,same,status⟩,facts⟩
  rcases situation.moving type with ⟨kind,-,-,place,-⟩ | ⟨kind,place⟩
  · obtain ⟨source,-,destination,-⟩ := row.trashes kind
    have arrived : existsAt e m.destination → location = some (.trash m.trashId) := by
      intro there
      rcases destination with trash | ⟨-,blank⟩
      · rw [trash] at there
        exact resides.trash there
      rw [blank] at there
      cases there
    cases sourceExists with
    | true =>
      cases there : existsAt e m.destination with
      | true =>
        have trash := arrived there
        refine ⟨m,rfl,same,situation.had trash,type,.inr ⟨kind,trash,?_⟩⟩
        rcases found rfl with home | ⟨-,-,occupied⟩
        · rw [source,trash] at home
          cases home
        exact occupied
      | false =>
        rcases found rfl with home | ⟨-,trash,-⟩
        · exact ⟨⟨rfl,same,status⟩,type,home⟩
        rcases destination with its | ⟨absent,-⟩
        · rw [its,resides.exists trash] at there
          cases there
        cases absent.symm.trans (situation.had trash)
    | false =>
      have away := missing rfl
      rw [source] at away
      cases there : existsAt e m.destination with
      | true =>
        have trash := arrived there
        have had := situation.had trash
        refine marking _ ?_
        rw [Arrived,kind,had]
        rcases destination with its | ⟨absent,-⟩
        · exact ⟨trash,its⟩
        cases absent.symm.trans had
      | false =>
        have absent : given = false := by
          cases given with
          | false => rfl
          | true =>
            rcases place with ⟨home,-⟩ | trash
            · exact absurd home away
            rcases destination with its | ⟨absent,-⟩
            · rw [its,resides.exists trash] at there
              cases there
            exact absent
        unfold decided
        rw [allowed absent,if_pos rfl]
        refine marking _ ?_
        rw [Arrived,kind]
        subst absent
        exact ⟨place.elim (fun home => home.1) fun trash => trash,rfl⟩
  · have source := (row.others (by rw [kind]; nofun)).1
    have home := row.restores kind
    cases sourceExists with
    | true =>
      have here : location = some m.source := by
        rcases found rfl with here | ⟨other,-⟩
        · exact here
        cases kind.symm.trans other
      cases existsAt e m.destination with
      | true => exact ⟨m,rfl,same,situation.had here,type,.inl here⟩
      | false => exact ⟨⟨rfl,same,status⟩,type,here⟩
    | false =>
      have away := missing rfl
      have arrived : location = expected given .home := by
        rcases place with ⟨trash,-⟩ | home
        · cases given with
          | false => exact trash
          | true =>
            rw [source] at away
            exact absurd trash away
        exact home
      cases there : existsAt e m.destination with
      | true =>
        refine marking _ ?_
        rw [Arrived,kind]
        exact ⟨arrived,home⟩
      | false =>
        have absent : given = false := by
          cases given with
          | false => rfl
          | true =>
            rcases home with its | ⟨absent,-⟩
            · rw [its,resides.exists arrived] at there
              cases there
            exact absent
        unfold decided
        rw [allowed absent,if_pos rfl]
        refine marking _ ?_
        rw [Arrived,kind]
        exact ⟨arrived,.inr ⟨absent,rfl⟩⟩

theorem remaining_holding (resides : Resides e (Damaged pending) location)
    (situation : Situation given e pending location) (holding : Holding given e pending location ⟨id,.remaining m⟩) :
    Holding given e pending location ⟨id,if existsAt e m.source then .remove m else .mark m m.destination⟩ := by
  obtain ⟨⟨current,same,status⟩,type⟩ := holding
  subst current
  cases there : existsAt e m.source with
  | true => exact ⟨⟨rfl,same,status⟩,type⟩
  | false =>
    refine ⟨⟨rfl,same,status⟩,?_⟩
    rw [Arrived,type]
    refine ⟨?_,rfl⟩
    have source := ((journal.rows m journal.member).others (by rw [type]; nofun)).1
    cases situation with
    | trashing kind | restoring kind | restored kind => cases kind.symm.trans type
    | purging _ _ _ _ _ place =>
      rcases place with ⟨trash,-⟩ | gone
      · cases given with
        | false => exact trash
        | true =>
          have here : location = some m.source := by
            rw [source]
            exact trash
          rw [resides.exists here] at there
          cases there
      exact gone
end

theorem Situation.applied (situation : Situation given e (some m) location) (status : m.status = .fsApplied) :
    (m.type = .trash ∧ location = expected given (.trash m.trashId) ∧ m.destination = path given m.trashId) ∨
      (m.type = .restore ∧ location = expected given .home) ∨ (m.type = .purge ∧ location = none) := by
  have intended : m.status = .intent → False := fun other => by
    rw [status] at other
    cases other
  cases situation with
  | trashing kind _ _ place applied =>
    exact .inl ⟨kind,place.resolve_left fun early => intended early.2,applied status⟩
  | restoring kind _ _ _ _ place => exact .inr (.inl ⟨kind,place.resolve_left fun early => intended early.2⟩)
  | restored kind _ _ had =>
    subst had
    exact .inr (.inl ⟨kind,rfl⟩)
  | purging kind _ _ _ _ place => exact .inr (.inr ⟨kind,place.resolve_left fun early => intended early.2⟩)

section
variable (journal : Journal given e pending)
include journal

theorem reread_holding (holding : Holding given e pending location ⟨id,.reread⟩) : Holding given e pending location ⟨id,reread id e⟩ := by
  obtain ⟨m,current,same,status⟩ := holding
  subst current same
  unfold reread
  rw [journal.found journal.member]
  dsimp only
  rw [if_pos status]
  split
  · rename_i type
    exact ⟨⟨rfl,rfl,status⟩,type⟩
  rename_i type
  exact ⟨⟨rfl,rfl,status⟩,type⟩

theorem verifySource_holding (resides : Resides e (Damaged pending) location)
    (situation : Situation given e pending location) (holding : Holding given e pending location ⟨id,.verifySource m⟩) :
    Holding given e pending location ⟨id,.verifyDestination m (existsAt e m.source)⟩ := by
  obtain ⟨⟨current,same,status⟩,type⟩ := holding
  subst current
  refine ⟨⟨rfl,same,status⟩,type,fun found => ?_⟩
  have row := journal.rows m journal.member
  rcases situation.applied status with ⟨kind,here,-⟩ | ⟨kind,here⟩ | ⟨kind,-⟩
  · rw [(row.trashes kind).1] at found
    cases given with
    | false =>
      rw [journal.vacant rfl] at found
      cases found
    | true =>
      rcases resides.atHome found with home | occupied
      · cases home.symm.trans here
      exact ⟨kind,occupied,rfl⟩
  · rw [(row.others (by rw [kind]; nofun)).1] at found
    cases given with
    | false => cases found
    | true => cases (resides.trash found).symm.trans here
  exact absurd kind type

theorem verifyDestination_holding (resides : Resides e (Damaged pending) location) (situation : Situation given e pending location)
    (holding : Holding given e pending location ⟨id,.verifyDestination m sourceExists⟩) : Holding given e pending location
      ⟨id,if sourceExists ∨ (existsAt e m.destination = false ∧ m.allowAbsentSource = false) then .fail else .complete⟩ := by
  obtain ⟨⟨current,same,status⟩,type,found⟩ := holding
  subst current
  have row := journal.rows m journal.member
  split
  · rename_i mismatch
    rcases mismatch with again | ⟨missing,refused⟩
    · obtain ⟨kind,occupied,had⟩ := found again
      subst had
      rcases situation.applied status with ⟨-,here,-⟩ | ⟨other,-⟩ | ⟨other,-⟩
      · exact ⟨m,rfl,same,rfl,type,.inr ⟨kind,here,occupied⟩⟩
      · cases kind.symm.trans other
      cases kind.symm.trans other
    cases given with
    | false =>
      rw [(row.absent rfl).2 type] at refused
      cases refused
    | true =>
      rcases situation.applied status with ⟨-,here,destination⟩ | ⟨kind,here⟩ | ⟨kind,-⟩
      · rw [destination] at missing
        cases missing.symm.trans (resides.exists here)
      · rcases row.restores kind with home | ⟨absent,-⟩
        · rw [home] at missing
          cases missing.symm.trans (resides.exists here)
        · cases absent
      exact absurd kind type
  exact ⟨m,rfl,same,status⟩

theorem verifyRemoved_holding (resides : Resides e (Damaged pending) location)
    (situation : Situation given e pending location) (holding : Holding given e pending location ⟨id,.verifyRemoved m⟩) :
    Holding given e pending location ⟨id,if existsAt e m.source then .fail else .complete⟩ := by
  obtain ⟨⟨current,same,status⟩,type⟩ := holding
  subst current
  split
  · rename_i found
    have source := ((journal.rows m journal.member).others (by rw [type]; nofun)).1
    rcases situation.applied status with ⟨kind,-⟩ | ⟨kind,-⟩ | ⟨-,gone⟩
    · cases kind.symm.trans type
    · cases kind.symm.trans type
    rw [source] at found
    cases given with
    | false => cases found
    | true => cases (resides.trash found).symm.trans gone
  exact ⟨m,rfl,same,status⟩
end
end

variable {pending : Option Mutation} {m : Mutation} {id : Nat}

@[simp] theorem put_mutations (e : Entity) (place : Place) (node : Option Node) : (e.put place node).mutations = e.mutations := by
  cases place <;> rfl
@[simp] theorem put_trash (e : Entity) (place : Place) (node : Option Node) : (e.put place node).trash = e.trash := by
  cases place <;> rfl
@[simp] theorem put_issued (e : Entity) (place : Place) (node : Option Node) : (e.put place node).issued = e.issued := by
  cases place <;> rfl
@[simp] theorem put_status (e : Entity) (place : Place) (node : Option Node) : (e.put place node).status = e.status := by
  cases place <;> rfl

theorem Journal.elsewhere (journal : Journal given e pending) (had : given)
    (rows : next.mutations = e.mutations) (items : next.trash = e.trash) (issued : next.issued = e.issued)
    (status : next.status = e.status) : Journal given next pending := by
  refine ⟨?_,?_,?_,?_,?_,fun absent => nomatch had.symm.trans absent⟩
  · rw [rows]
    exact journal.keyed
  · rw [items]
    exact journal.items
  · rw [items,issued]
    exact journal.known
  · rw [rows]
    exact fun other mem => (journal.rows other mem).same (Nat.le_of_eq issued.symm) items status
  rw [rows]
  exact journal.pending

theorem moved_resides (resides : Resides e (Damaged pending) location) (row : Row given e m) (type : m.type ≠ .purge)
    (here : location = some m.source) (had : given) (intent : m.type = .trash → m.trashId < e.issued)
    (found : e.at m.source = some node) (trashId : m.type = .restore → location = some (.trash m.trashId)) :
    Resides ((e.put m.destination (some node)).put m.source none) (Damaged pending) (some m.destination) := by
  obtain ⟨whole,there,intact⟩ := resides.there _ here
  cases found.symm.trans there
  cases kind : m.type with
  | purge => exact absurd kind type
  | trash =>
    obtain ⟨source,-,destination,-⟩ := row.trashes kind
    rcases destination with trash | ⟨absent,-⟩
    · rw [source,trash]
      refine ⟨?_,?_,fun _ _ => nofun,?_⟩
      · intro _ same
        cases same
        exact ⟨whole,update_self ..,intact⟩
      · intro other different
        have apart : other ≠ m.trashId := fun same => different (by rw [same])
        refine (update_of_ne apart ..).trans (resides.bins other ?_)
        rw [here,source]
        nofun
      intro _ same
      cases same
      exact intent kind
    cases had.symm.trans absent
  | restore =>
    have source := (row.others (by rw [kind]; nofun)).1
    rw [had] at source
    rcases row.restores kind with home | ⟨absent,-⟩
    · rw [show m.source = .trash m.trashId from source,home]
      refine ⟨?_,?_,fun away => absurd rfl away,nofun⟩
      · intro _ same
        cases same
        exact ⟨whole,rfl,intact⟩
      intro other _
      by_cases same : other = m.trashId
      · subst same
        exact update_self ..
      refine (update_of_ne same ..).trans (resides.bins other ?_)
      rw [trashId kind]
      intro equal
      cases equal
      exact same rfl
    cases had.symm.trans absent

theorem rename_sound (journal : Journal given e pending) (resides : Resides e (Damaged pending) location)
    (situation : Situation given e pending location) (holding : Holding given e pending location ⟨id,.rename m⟩)
    (moved : renamed m e = some next) : Sound given ⟨next,some ⟨id,.mark m m.destination⟩⟩ := by
  obtain ⟨⟨current,same,status⟩,type,here⟩ := holding
  subst current
  have had := situation.had here
  have row := journal.rows m journal.member
  obtain ⟨node,found,made⟩ : ∃ node, e.at m.source = some node ∧ (e.put m.destination (some node)).put m.source none = next := by
    unfold renamed at moved
    split at moved
    · rename_i node found _
      cases moved
      exact ⟨node,found,rfl⟩
    · rename_i node found _
      cases moved
      exact ⟨node,found,rfl⟩
    cases moved
  have rows : next.mutations = e.mutations := by rw [←made,put_mutations,put_mutations]
  have trash : next.trash = e.trash := by rw [←made,put_trash,put_trash]
  have drawn : next.issued = e.issued := by rw [←made,put_issued,put_issued]
  have unchanged : next.status = e.status := by rw [←made,put_status,put_status]
  have issued : m.type = .trash → m.trashId < e.issued := by
    intro kind
    have known := row.known
    have its := (row.trashes kind).2.1
    omega
  have trashes : m.type = .restore → location = some (.trash m.trashId) := by
    intro kind
    have source := (row.others (by rw [kind]; nofun)).1
    rw [had] at source
    rw [here,source]
    rfl
  have arrived := moved_resides resides row type here had issued found trashes
  rw [made] at arrived
  refine ⟨some m,some m.destination,journal.elsewhere had rows trash drawn unchanged,arrived,?_,fun run running => ?_⟩
  · subst had
    cases situation with
    | trashing kind standing items _ applied =>
      have none_ : NoItem next := by
        unfold NoItem
        rw [trash]
        exact items
      refine .trashing kind (fun again => standing (unchanged.symm.trans again)) none_ (.inr ?_) applied
      rcases (row.trashes kind).2.2.1 with its | ⟨absent,-⟩
      · rw [its]
        rfl
      cases absent
    | restoring kind standing items same path place =>
      rename_i item
      have only : OnlyItem next item := by
        unfold OnlyItem
        rw [trash]
        exact items
      refine .restoring kind (unchanged.trans standing) only same path (.inr ?_)
      rcases row.restores kind with home | ⟨absent,-⟩
      · rw [home]
        rfl
      cases absent
    | restored kind =>
      rw [(row.others (by rw [kind]; nofun)).1] at here
      cases here
    | purging kind => exact absurd kind type
  cases running
  refine ⟨⟨rfl,same,status⟩,?_⟩
  subst had
  cases kind : m.type with
  | purge => exact absurd kind type
  | trash =>
    rcases (row.trashes kind).2.2.1 with trash | ⟨absent,-⟩
    · rw [Arrived,kind,trash]
      exact ⟨rfl,rfl⟩
    cases absent
  | restore =>
    rcases row.restores kind with home | ⟨absent,-⟩
    · rw [Arrived,kind,home]
      exact ⟨rfl,.inl rfl⟩
    cases absent

theorem Situation.removing (situation : Situation given e (some m) location) (type : m.type = .purge) :
    e.status = .trashed ∧ (∃ item, OnlyItem e item ∧ item.id = m.trashId ∧ item.relativePath = path given item.id) ∧
      (location = expected given (.trash m.trashId) ∧ m.status = .intent ∨ location = none) := by
  cases situation with
  | trashing kind | restoring kind | restored kind => cases kind.symm.trans type
  | purging _ status items same path place => exact ⟨status,⟨_,items,same,path⟩,place⟩

section
variable (journal : Journal given e pending) (resides : Resides e (Damaged pending) location) (situation : Situation given e pending location) (holding : Holding given e pending location ⟨id,.remove m⟩)
include journal resides situation holding

theorem remove_sound : Sound given ⟨e.put m.source none,some ⟨id,.mark m m.destination⟩⟩ := by
  obtain ⟨⟨current,same,status⟩,type⟩ := holding
  subst current
  obtain ⟨standing,⟨item,items,its,relative⟩,place⟩ := situation.removing type
  have source := ((journal.rows m journal.member).others (by rw [type]; nofun)).1
  have marking : ∀ next : Entity, Holding given next (some m) none ⟨id,.mark m m.destination⟩ := by
    intro _
    refine ⟨⟨rfl,same,status⟩,?_⟩
    rw [Arrived,type]
    exact ⟨rfl,rfl⟩
  cases given with
  | false =>
    have gone : location = none := place.elim (fun trash => trash.1) fun gone => gone
    have unchanged : e.put m.source none = e := by
      rw [source]
      rfl
    rw [unchanged]
    exact ⟨some m,none,journal,gone ▸ resides,.purging type standing items its relative (.inr rfl), fun run running => by cases running; exact marking e⟩
  | true =>
    have empty : Resides (e.put m.source none) (Damaged (some m)) none := by
      rw [source]
      refine ⟨nofun,?_,?_,nofun⟩
      · intro other _
        by_cases equal : other = m.trashId
        · subst equal
          exact update_self ..
        refine (update_of_ne equal ..).trans (resides.bins other ?_)
        rcases place with ⟨trash,-⟩ | gone
        · rw [trash]
          intro same
          cases same
          exact equal rfl
        rw [gone]
        nofun
      intro _ whole found
      refine resides.home ?_ whole found
      rcases place with ⟨trash,-⟩ | gone
      · rw [trash]
        nofun
      rw [gone]
      nofun
    have only : OnlyItem (e.put m.source none) item := by
      unfold OnlyItem
      rw [put_trash]
      exact items
    refine ⟨some m,none,journal.elsewhere rfl ?_ ?_ ?_ ?_,empty,?_,fun run running => ?_⟩
    · exact put_mutations ..
    · exact put_trash ..
    · exact put_issued ..
    · exact put_status ..
    · exact .purging type ((put_status ..).trans standing) only its relative (.inr rfl)
    cases running
    exact marking _

theorem damage_sound (found : e.at m.source = some (.content whole)) : Sound given ⟨e.put m.source (some (.content false)),none⟩ := by
  obtain ⟨⟨current,_,_⟩,type⟩ := holding
  subst current
  obtain ⟨standing,⟨item,items,its,relative⟩,place⟩ := situation.removing type
  have here : location = some m.source := resides.content.mp ⟨whole,found⟩
  have had := situation.had here
  have source : m.source = .trash m.trashId := by
    rw [((journal.rows m journal.member).others (by rw [type]; nofun)).1,had]
    rfl
  rw [source] at here
  have broken : Resides (e.put m.source (some (.content false))) (Damaged (some m)) location := by
    rw [here,source]
    refine ⟨?_,?_,?_,?_⟩
    · intro _ equal
      cases equal
      exact ⟨false,update_self ..,.inr ⟨m,rfl,type⟩⟩
    · intro other different
      have apart : other ≠ m.trashId := fun equal => different (by rw [equal])
      refine (update_of_ne apart ..).trans (resides.bins other ?_)
      rw [here]
      exact different
    · intro _ intact there
      refine resides.home ?_ intact there
      rw [here]
      nofun
    intro other equal
    exact resides.known other (here.trans equal)
  have only : OnlyItem (e.put m.source (some (.content false))) item := by
    unfold OnlyItem
    rw [put_trash]
    exact items
  refine ⟨some m,location,journal.elsewhere had ?_ ?_ ?_ ?_,broken,?_,fun _ running => nomatch running⟩
  · exact put_mutations ..
  · exact put_trash ..
  · exact put_issued ..
  · exact put_status ..
  exact .purging type ((put_status ..).trans standing) only its relative place
end

theorem Journal.active (journal : Journal given e (some m)) : m.active := ((journal.pending m).mp rfl).2

theorem active_incomplete (active : m.active) : m.status ≠ .complete := by
  intro complete
  unfold Mutation.active at active
  rw [complete] at active
  cases active

theorem Mutation.kinds (m : Mutation) : m.type = .trash ∨ m.type = .restore ∨ m.type = .purge := by
  cases m.type with
  | trash => exact .inl rfl
  | restore => exact .inr (.inl rfl)
  | purge => exact .inr (.inr rfl)

theorem applied_id (destination : Place) (m : Mutation) : (m.applied destination).id = m.id := by
  unfold Mutation.applied
  split
  · rfl
  rfl

theorem mark_sound (journal : Journal given e pending) (resides : Resides e (Damaged pending) location)
    (situation : Situation given e pending location) (holding : Holding given e pending location ⟨id,.mark m destination⟩) :
    Sound given ⟨markStorageMutationFsApplied id destination e,some ⟨id,marked id e⟩⟩ := by
  obtain ⟨⟨current,same,status⟩,facts⟩ := holding
  subst current
  cases same
  have row := journal.rows m journal.member
  have active := journal.active
  have phase : marked m.id e = .reread := by
    unfold marked
    rw [journal.found journal.member]
    dsimp only
    rw [if_neg]
    rw [status]
    nofun
  have changed : m.applied destination = { m with status := .fsApplied, destination := destination } := if_pos active
  have its : Row given e { m with status := .fsApplied, destination := destination } := by
    refine ⟨row.known,?_,row.others,?_,?_,?_⟩
    · intro kind
      obtain ⟨source,trashId,-,unposted⟩ := row.trashes kind
      rw [Arrived,kind] at facts
      refine ⟨source,trashId,?_,fun _ => unposted (active_incomplete active)⟩
      cases given with
      | true => exact .inl facts.2
      | false => exact .inr ⟨rfl,facts.2⟩
    · intro kind
      rw [Arrived,kind] at facts
      exact facts.2
    · exact fun _ => ⟨nofun,nofun⟩
    exact fun absent => ⟨nofun,(row.absent absent).2⟩
  have amended : Journal given (markStorageMutationFsApplied m.id destination e) (some { m with status := .fsApplied, destination := destination }) := by
    rw [←changed] at its
    have after := journal.amended (Mutation.applied destination) journal.member (.inr rfl) (applied_id destination) (by rw [changed]) (by rw [changed]) its
    rw [changed] at after
    exact after
  rw [phase]
  refine ⟨_,location,amended,resides.same rfl rfl (Nat.le_refl _) ?_,?_,?_⟩
  · intro damaged
    obtain ⟨_,equal,kind⟩ := damaged
    cases equal
    exact ⟨_,rfl,kind⟩
  · rcases m.kinds with kind | kind | kind
    · rw [Arrived,kind] at facts
      rcases situation.moving (by rw [kind]; nofun) with ⟨-,standing,items,-,-⟩ | ⟨other,-⟩
      · exact .trashing kind standing items (.inr facts.1) fun _ => facts.2
      cases kind.symm.trans other
    · rw [Arrived,kind] at facts
      cases situation with
      | trashing other | purging other => cases kind.symm.trans other
      | restoring _ standing items same path => exact .restoring kind standing items same path (.inr facts.1)
      | restored _ standing items had => exact .restored kind standing items had
    · rw [Arrived,kind] at facts
      obtain ⟨standing,⟨_,items,same,relative⟩,-⟩ := situation.removing kind
      exact .purging kind standing items same relative (.inr facts.1)
  intro _ running
  cases running
  exact ⟨_,rfl,rfl,rfl⟩
end LedgeTopOps.StorageLifecycle
