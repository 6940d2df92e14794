import LedgeTopOps.RequestDrafts

namespace LedgeTopOps.RequestDrafts
open List SqlBatches KeyedRows Function
open Bool (and_eq_true_iff)

variable {ω Session Policy Authority : Type} {name id expectedVersion : Nat}

  {rows : List ServiceRow}

theorem posted_some {after : List ServiceRow} (done : posted rows row = some after) : after = rows++[row] := by
  unfold posted at done
  split at done
  · cases done
  exact (Option.some.inj done).symm

theorem services_idle (idle : fenced id mutationKey t = false)
    (done : batch (rows.map (insertDraftService id mutationKey)) t changes = some (u,counts)) : u = t := by
  induction rows generalizing changes counts with
  | nil =>
    cases done
    rfl
  | cons _ _ ih =>
    obtain ⟨_,_,_,ran,further,rfl⟩ := batch_cons.mp done
    rcases guarded_some ran with ⟨met,-⟩ | ⟨-,rfl,-⟩
    · cases met.symm.trans idle
    exact ih further

theorem services_made (met : fenced id mutationKey t) (done : batch (rows.map (insertDraftService id mutationKey)) t changes = some (u,counts)) :
    u = { t with services := t.services++rows } := by
  induction rows generalizing t changes counts with
  | nil =>
    cases done
    rw [append_nil]
  | cons row _ ih =>
    obtain ⟨_,_,_,ran,further,rfl⟩ := batch_cons.mp done
    rcases guarded_some ran with ⟨-,made,-⟩ | ⟨unmet,-⟩
    · obtain ⟨_,added,rfl⟩ := Option.map_eq_some_iff.mp made
      cases posted_some added
      have still : fenced id mutationKey { t with services := t.services++[row] } := met
      rw [ih still further]
      simp only [append_assoc,singleton_append]
    cases met.symm.trans unmet

theorem request_services_idle (idle : requested name t = false) (done : batch (rows.map (insertRequestService name)) t changes = some (u,counts)) : u = t := by
  induction rows generalizing changes counts with
  | nil =>
    cases done
    rfl
  | cons _ _ ih =>
    obtain ⟨_,_,_,ran,further,rfl⟩ := batch_cons.mp done
    rcases guarded_some ran with ⟨met,-⟩ | ⟨-,rfl,-⟩
    · cases met.symm.trans idle
    exact ih further

theorem request_services_made (met : requested name t) (done : batch (rows.map (insertRequestService name)) t changes = some (u,counts)) :
    u = { t with requestServices := t.requestServices++rows } := by
  induction rows generalizing t changes counts with
  | nil =>
    cases done
    rw [append_nil]
  | cons row _ ih =>
    obtain ⟨_,_,_,ran,further,rfl⟩ := batch_cons.mp done
    rcases guarded_some ran with ⟨-,made,-⟩ | ⟨unmet,-⟩
    · obtain ⟨_,added,rfl⟩ := Option.map_eq_some_iff.mp made
      cases posted_some added
      have still : requested name { t with requestServices := t.requestServices++[row] } := met
      rw [ih still further]
      simp only [append_assoc,singleton_append]
    cases met.symm.trans unmet

def newDraft (p : Portal ω Session Policy Authority) (name : Nat) (identity : String) (input : Input) (mutationKey : String) : Draft where
  id := name
  projectId := input.fields.projectId
  createdBy := identity
  state := .draft
  version := 1
  fields := input.fields
  areaGeoJson := input.areaGeoJson
  areaSquareMeters := input.areaGeoJson.map p.squareMeters
  areaAcres := (input.areaGeoJson.map p.squareMeters).map p.acres
  createKey := mutationKey
  createFingerprint := p.inputFingerprint input
  submittedRequestId := none
  submitKey := none
  submitFingerprint := none
  lastMutationKey := mutationKey
  author := name

def createdDb (p : Portal ω Session Policy Authority) (name : Nat) (identity : String) (input : Input) (services : List Selection)
    (mutationKey : String) (db : Db ω Policy Authority) : Db ω Policy Authority :=
  { db with
    drafts := db.drafts++[newDraft p name identity input mutationKey]
    services := db.services++numbered name services
    progress := update db.progress name .written }

theorem create_batch (fresh : Unused name t)
    (done : batch (createStatements p name identity input services policy authority mutationKey) t 0 = some (u,counts)) :
    (counts.headD 0 = 1 ∧ u = createdDb p name identity input services mutationKey t) ∨ (counts.headD 0 = 0 ∧ u = t) := by
  obtain ⟨_,_,_,ran,further,rfl⟩ := batch_cons.mp done
  rcases guarded_some ran with ⟨-,made,rfl⟩ | ⟨-,rfl,rfl⟩
  · split at made
    · cases made
    · cases made
      refine .inl ⟨rfl,?_⟩
      have met : fenced name mutationKey { t with
          drafts := t.drafts++[newDraft p name identity input mutationKey]
          progress := update t.progress name .written } := by
        refine any_eq_true.mpr ⟨_,mem_append_right _ (mem_singleton_self _),?_⟩
        exact and_eq_true_iff.mpr ⟨decide_eq_true rfl,decide_eq_true rfl⟩
      exact services_made met further
  refine .inr ⟨rfl,services_idle ?_ further⟩
  refine any_eq_false.mpr fun draft mem met => ?_
  exact fresh.drafts draft mem (of_decide_eq_true (and_eq_true_iff.mp met).1)

theorem draft_fenced (keyed : Keyed Draft.id t.drafts) (found : t.draft id = some draft) :
    fenced id mutationKey t = decide (draft.lastMutationKey = mutationKey) := by
  obtain ⟨mem,rfl⟩ := find_some found
  cases same : decide (draft.lastMutationKey = mutationKey) with
  | true => exact any_eq_true.mpr ⟨draft,mem,and_eq_true_iff.mpr ⟨decide_eq_true rfl,same⟩⟩
  | false =>
    refine any_eq_false.mpr fun other there met => ?_
    obtain ⟨equal,key⟩ := and_eq_true_iff.mp met
    cases keyed.unique there mem (of_decide_eq_true equal)
    cases key.symm.trans same

theorem draft_unfenced (missing : t.draft id = none) : fenced id mutationKey t = false := by
  refine any_eq_false.mpr fun other there met => ?_
  exact find_none.mp missing other there (of_decide_eq_true (and_eq_true_iff.mp met).1)

-- A save whose update does not apply, while its draft's last key is its own and unrecorded: the statements after the
-- update go through.
def Leaks (p : Portal ω Session Policy Authority) (identity : String) (id expectedVersion : Nat) (input : Input) (mutationKey : String)
    (policy : Policy) (authority : Authority) (db : Db ω Policy Authority) : Prop :=
  applies p identity id expectedVersion input input.reviewed policy authority db = false ∧ fenced id mutationKey db = true ∧
    ∀ row ∈ db.mutations, row.draftId = id → row.mutationKey ≠ mutationKey

instance (db : Db ω Policy Authority) : Decidable (Leaks p identity id expectedVersion input mutationKey policy authority db) :=
  inferInstanceAs (Decidable (_ ∧ _ ∧ _))

theorem applies_draft (met : applies p identity id expectedVersion input (reviewed services) policy authority t) :
    ∃ draft, t.draft id = some draft ∧ draft.state = .draft ∧ draft.version = expectedVersion := by
  obtain ⟨draft,found,holds⟩ := (Option.any_eq_true _ _).mp met
  simp only [Bool.and_eq_true,decide_eq_true_eq] at holds
  exact ⟨draft,found,holds.1.1.1,holds.1.1.2⟩

theorem deleted_made (met : fenced id mutationKey t) (done : deleteDraftServices id mutationKey t changes = some (u,changed)) :
    u = { t with services := t.services.filter fun row => decide (row.owner ≠ id) } := by
  unfold deleteDraftServices at done
  rw [if_pos met] at done
  cases done
  rfl

theorem deleted_idle (idle : fenced id mutationKey t = false) (done : deleteDraftServices id mutationKey t changes = some (u,changed)) : u = t := by
  unfold deleteDraftServices at done
  rw [if_neg (Bool.eq_false_iff.mp idle)] at done
  cases done
  rfl

theorem mutation_made (found : t.draft id = some draft)
    (last : draft.lastMutationKey = mutationKey) (done : insertMutation name id mutationKey fingerprint t changes = some (u,changed)) :
    u = { t with mutations := t.mutations++[⟨id,mutationKey,fingerprint,draft.version,name⟩] } ∧
      ∀ row ∈ t.mutations, row.draftId = id → row.mutationKey ≠ mutationKey := by
  unfold insertMutation at done
  rw [found] at done
  dsimp only at done
  rw [if_pos last] at done
  split at done
  · cases done
  rename_i absent
  cases done
  refine ⟨rfl,fun row mem owned key => absent ?_⟩
  exact any_eq_true.mpr ⟨row,mem,and_eq_true_iff.mpr ⟨decide_eq_true owned,decide_eq_true key⟩⟩

theorem mutation_idle (keyed : Keyed Draft.id t.drafts) (idle : fenced id mutationKey t = false)
    (done : insertMutation name id mutationKey fingerprint t changes = some (u,changed)) : u = t := by
  unfold insertMutation at done
  split at done
  · rename_i draft found
    rw [draft_fenced keyed found] at idle
    rw [if_neg (of_decide_eq_false idle)] at done
    cases done
    rfl
  cases done
  rfl

theorem passed_written (written : t.progress name = .written) (done : passed name t changes = some (u,changed)) : u = t := by
  unfold passed at done
  rw [written] at done
  cases done
  rfl

theorem passed_writing (writing : t.progress name = .writing policy authority) (done : passed name t changes = some (u,changed)) :
    u = t.note name .reading := by
  unfold passed at done
  rw [writing] at done
  cases done
  rfl

def savedDb (p : Portal ω Session Policy Authority) (name id expectedVersion : Nat) (input : Input) (services : List Selection)
    (mutationKey : String) (db : Db ω Policy Authority) : Db ω Policy Authority where
  world := db.world
  drafts := amend Draft.id db.drafts id (saved p name input mutationKey)
  services := (db.services.filter fun row => decide (row.owner ≠ id))++numbered id services
  mutations := db.mutations++[⟨id,mutationKey,p.inputFingerprint input,expectedVersion+1,name⟩]
  requests := db.requests
  requestServices := db.requestServices
  progress := update db.progress name .written

def updatedDb (p : Portal ω Session Policy Authority) (name id : Nat) (input : Input) (mutationKey : String)
    (db : Db ω Policy Authority) : Db ω Policy Authority :=
  { db with
    drafts := amend Draft.id db.drafts id (saved p name input mutationKey)
    progress := update db.progress name .written }

theorem updated_found (p : Portal ω Session Policy Authority) (name : Nat) (mutationKey : String) (input : Input)
    (keyed : Keyed Draft.id t.drafts) (found : t.draft id = some draft) :
    (updatedDb p name id input mutationKey t).draft id = some (saved p name input mutationKey draft) := by
  obtain ⟨mem,rfl⟩ := find_some found
  have amended : Keyed Draft.id (amend Draft.id t.drafts draft.id (saved p name input mutationKey)) := keyed.amend _ fun _ _ _ => rfl
  exact amended.find (mem_amend.mpr (.inr ⟨draft,mem,rfl,rfl⟩))

theorem save_batch (keyed : Keyed Draft.id t.drafts) (writing : t.progress name = .writing policy authority)
    (same : reviewed services = input.reviewed) (tight : ¬Leaks p identity id expectedVersion input mutationKey policy authority t)
    (done : batch (saveStatements p name identity id expectedVersion input services policy authority mutationKey) t 0 = some (u,counts)) :
    (∃ draft, t.draft id = some draft ∧ draft.state = .draft ∧ draft.version = expectedVersion ∧ counts.headD 0 = 1 ∧
      u = savedDb p name id expectedVersion input services mutationKey t) ∨ (counts.headD 0 = 0 ∧ u = t.note name .reading) := by
  obtain ⟨first,_,_,updated,afterUpdate,rfl⟩ := batch_cons.mp done
  obtain ⟨_,_,_,deleted,afterDelete,rfl⟩ := batch_cons.mp afterUpdate
  obtain ⟨third,_,_,_,inserted,afterInsert,rfl⟩ := batch_append afterDelete
  obtain ⟨fourth,_,_,recorded,afterRecord,rfl⟩ := batch_cons.mp afterInsert
  obtain ⟨_,_,_,settled,afterAll,rfl⟩ := batch_cons.mp afterRecord
  cases afterAll
  rcases guarded_some updated with ⟨met,made,rfl⟩ | ⟨unmet,rfl,rfl⟩
  · obtain ⟨draft,found,state,version⟩ := applies_draft met
    have amended : Keyed Draft.id (amend Draft.id t.drafts id (saved p name input mutationKey)) := keyed.amend _ fun _ _ _ => rfl
    have there := updated_found p name mutationKey input keyed found
    cases made
    refine .inl ⟨draft,found,state,version,rfl,?_⟩
    have fence : fenced id mutationKey (updatedDb p name id input mutationKey t) :=
      (draft_fenced amended there).trans (decide_eq_true rfl)
    cases deleted_made fence deleted
    have still : fenced id mutationKey { updatedDb p name id input mutationKey t with
        services := t.services.filter fun row => decide (row.owner ≠ id) } := fence
    have posted := services_made still inserted
    have listed : third.draft id = some (saved p name input mutationKey draft) := by
      rw [posted]
      exact there
    obtain ⟨noted,-⟩ := mutation_made listed rfl recorded
    have written : fourth.progress name = .written := by
      rw [noted,posted]
      exact update_self ..
    rw [passed_written written settled,noted,posted,savedDb,←version]
    rfl
  refine .inr ⟨rfl,?_⟩
  have idle : fenced id mutationKey first = false := by
    cases met : fenced id mutationKey first with
    | false => rfl
    | true =>
      cases deleted_made met deleted
      have still : fenced id mutationKey { first with services := first.services.filter fun row => decide (row.owner ≠ id) } := met
      have posted := services_made still inserted
      obtain ⟨draft,found,key⟩ : ∃ draft, first.draft id = some draft ∧ draft.lastMutationKey = mutationKey := by
        cases found : first.draft id with
        | none => cases met.symm.trans (draft_unfenced found)
        | some draft => exact ⟨draft,rfl,of_decide_eq_true ((draft_fenced keyed found).symm.trans met)⟩
      have listed : third.draft id = some draft := by
        rw [posted]
        exact found
      obtain ⟨-,fresh⟩ := mutation_made listed key recorded
      rw [posted] at fresh
      rw [same] at unmet
      exact absurd ⟨unmet,met,fresh⟩ tight
  cases deleted_idle idle deleted
  cases services_idle idle inserted
  cases mutation_idle keyed idle recorded
  exact passed_writing writing settled

theorem insertRequest_some (done : insertRequest p name identity draft id expectedVersion policy authority mutationKey t changes =
    some (u,changed)) : (∃ row, t.draft id = some row ∧ row.state = .draft ∧ row.version = expectedVersion ∧ changed = 1 ∧ u = { t with
      requests := t.requests++[⟨name,{ draft.fields with projectId := row.projectId },row.createdBy,serviceCategory draft.services,
        draft.areaGeoJson,mutationKey,p.draftFingerprint draft⟩]
      progress := update t.progress name .written }) ∨ (changed = 0 ∧ u = t) := by
  unfold insertRequest at done
  split at done
  · rename_i row found
    split at done
    · rename_i met
      split at done
      · cases done
      cases done
      exact .inl ⟨row,found,met.1,met.2.1,rfl,rfl⟩
    cases done
    exact .inr ⟨rfl,rfl⟩
  cases done
  exact .inr ⟨rfl,rfl⟩

def submittedDb (p : Portal ω Session Policy Authority) (name id expectedVersion : Nat) (draft : Loaded) (row : Draft)
    (mutationKey : String) (db : Db ω Policy Authority) : Db ω Policy Authority where
  world := db.world
  drafts := amend Draft.id db.drafts id (retired p name id expectedVersion mutationKey)
  services := db.services
  mutations := db.mutations
  requests := db.requests++[⟨name,{ draft.fields with projectId := row.projectId },row.createdBy,serviceCategory draft.services,
    draft.areaGeoJson,mutationKey,p.draftFingerprint draft⟩]
  requestServices := db.requestServices++numbered name draft.services
  progress := update db.progress name .written

theorem submit_batch (fresh : Unused name t)
    (done : batch (submitStatements p name identity draft id expectedVersion policy authority mutationKey) t 0 = some (u,counts)) :
    (∃ row, t.draft id = some row ∧ row.state = .draft ∧ row.version = expectedVersion ∧ counts.headD 0 = 1 ∧
      u = submittedDb p name id expectedVersion draft row mutationKey t) ∨ (counts.headD 0 = 0 ∧ u = t) := by
  obtain ⟨first,_,_,inserted,afterInsert,rfl⟩ := batch_cons.mp done
  obtain ⟨second,_,_,_,copied,afterCopy,rfl⟩ := batch_append afterInsert
  obtain ⟨_,_,_,submitted,afterAll,rfl⟩ := batch_cons.mp afterCopy
  cases afterAll
  rcases insertRequest_some inserted with ⟨row,found,state,version,rfl,made⟩ | ⟨rfl,rfl⟩
  · refine .inl ⟨row,found,state,version,rfl,?_⟩
    have asked : requested name first := by
      rw [made]
      exact any_eq_true.mpr ⟨_,mem_append_right _ (mem_singleton_self _),decide_eq_true rfl⟩
    have posted := request_services_made asked copied
    rcases guarded_some submitted with ⟨-,moved,-⟩ | ⟨unmet,-⟩
    · split at moved
      · cases moved
      · rw [←Option.some.inj moved,posted,made]
        rfl
    have met : (requested name second && (second.draft id).any fun draft =>
        decide (draft.state = .draft) && decide (draft.version = expectedVersion)) := by
      rw [posted]
      refine and_eq_true_iff.mpr ⟨asked,?_⟩
      rw [made]
      refine (Option.any_eq_true _ _).mpr ⟨row,found,?_⟩
      exact and_eq_true_iff.mpr ⟨decide_eq_true state,decide_eq_true version⟩
    cases met.symm.trans unmet
  refine .inr ⟨rfl,?_⟩
  have idle : requested name first = false :=
    any_eq_false.mpr fun request mem same => fresh.requests request mem (of_decide_eq_true same)
  cases request_services_idle idle copied
  rcases guarded_some submitted with ⟨met,-⟩ | ⟨-,rfl,-⟩
  · cases (and_eq_true_iff.mp met).1.symm.trans idle
  rfl
end LedgeTopOps.RequestDrafts
