import LedgeTopOps.RequestDraftHistory

namespace LedgeTopOps.RequestDrafts
open List StepRuns AtomicPrograms SqlBatches KeyedRows
open Function (update_self)

variable {ω Session Policy Authority : Type} (p : Portal ω Session Policy Authority)

def shown (name : Nat) (identity : String) (draftId : Nat) (db : Db ω Policy Authority) : Bool := match db.progress name with
  | .written => (db.draft draftId).all (accessible p db.world identity)
  | _ => true

def tight (name : Nat) (identity : String) (draftId expectedVersion : Nat) (input : Input) (mutationKey : String)
    (db : Db ω Policy Authority) : Bool := match db.progress name with
  | .writing policy authority => !decide (Leaks p identity draftId expectedVersion input mutationKey policy authority db)
  | _ => true

def named (name : Nat) (identity : String) (db : Db ω Policy Authority) : Bool := match db.progress name with
  | .written => (p.role db.world identity).isSome
  | _ => true

abbrev Careful (name : Nat) (request : Request Session) (db : Db ω Policy Authority) : Prop :=
  (match request.change with
    | .create _ _ => shown p name (p.identity request.session) name db
    | .save draftId expectedVersion input mutationKey => shown p name (p.identity request.session) draftId db &&
        tight p name (p.identity request.session) draftId expectedVersion input mutationKey db
    | .submit _ _ _ => named p name (p.identity request.session) db) = true

structure Rely (name : Nat) (s t : Db ω Policy Authority) : Prop where
  later : Later s t
  unused : Unused name s → Unused name t
  progress : t.progress name = s.progress name

def terms (name : Nat) (request : Request Session) : Terms (Db ω Policy Authority) Outcome where
  inside db := Sound db ∧ Careful p name request db
  rely := Rely name
  guarantee s t _ := Sound t ∧ Steps p name request.change s t
  post result db := result.refused = true → ¬Effective name db

variable {p}

theorem shown_accessible (shows : shown p name identity draftId db)
    (written : db.progress name = .written) (found : db.draft draftId = some draft) : accessible p db.world identity draft := by
  unfold shown at shows
  rw [written,found] at shows
  exact shows

theorem tight_leaks (holds : tight p name identity draftId expectedVersion input mutationKey db)
    (writing : db.progress name = .writing policy authority) : ¬Leaks p identity draftId expectedVersion input mutationKey policy authority db := by
  unfold tight at holds
  rw [writing] at holds
  simpa using holds

theorem named_role (holds : named p name identity db) (written : db.progress name = .written) : (p.role db.world identity).isSome := by
  unfold named at holds
  rw [written] at holds
  exact holds

theorem SameTables.rely (same : SameTables s t) (progress : t.progress name = s.progress name) : Rely name s t :=
  ⟨same.later,fun unused => same.unused unused,progress⟩

theorem Rely.next (first : Rely name s t) (second : Rely name t u) : Rely name s u :=
  ⟨first.later.next second.later,fun unused => second.unused (first.unused unused),second.progress.trans first.progress⟩

theorem Rely.effective (relied : Rely name s t) (idle : ¬Effective name s) : ¬Effective name t := by
  unfold Effective
  rw [relied.progress]
  exact idle

structure Holding (name : Nat) (held : Db ω Policy Authority → Prop) : Prop where
  later : ∀ s t, held s → Rely name s t → held t
  idle : ∀ s, held s → ¬Effective name s

theorem Holding.idly : Holding name fun db : Db ω Policy Authority => ¬Effective name db :=
  ⟨fun _ _ idle relied => relied.effective idle,fun _ idle => idle⟩

structure Ready (name : Nat) (db : Db ω Policy Authority) : Prop where
  unused : Unused name db
  reading : db.progress name = .reading

theorem reading_idle (progress : db.progress name = .reading) : ¬Effective name db := by
  unfold Effective
  rw [progress]
  exact fun either => either.elim nofun nofun

theorem writing_idle (progress : db.progress name = .writing policy authority) : ¬Effective name db := by
  unfold Effective
  rw [progress]
  exact fun either => either.elim nofun nofun

theorem Ready.idle (ready : Ready name db) : ¬Effective name db := reading_idle ready.reading

theorem Holding.ready : Holding name fun db : Db ω Policy Authority => Ready name db :=
  ⟨fun _ _ ready relied => ⟨relied.unused ready.unused,relied.progress.trans ready.reading⟩,fun _ ready => ready.idle⟩

section
theorem settled (holding : Holding name held) (holds : held db) : Obeys (terms p name request) (.done result) db :=
  fun _ => holding.idle db holds

theorem threw : Obeys (terms p name request) (.done .threw) db := fun refused => nomatch refused

theorem reading {next : Db ω Policy Authority → Code ω Policy Authority} (holding : Holding name held)
    (holds : held db) (after : ∀ t, held t → Sound t → Rely name db t → Obeys (terms p name request) (next t) t)
    (handled : ∀ t, held t → Obeys (terms p name request) failed t) : Obeys (terms p name request) (.read failed next) db := by
  refine obeys_read (fun t inside => ⟨inside.1,Steps.rfl⟩) fun t relied inside => ?_
  have still := holding.later db t holds relied
  exact ⟨after t still inside.1 relied,handled t still⟩

def Reflects (id : Nat) (draft : Loaded) (db : Db ω Policy Authority) : Prop := ∀ t row, Later db t → Sound t → t.draft id = some row →
  row.version = draft.version → row.state = .draft → Shows t draft row

theorem Reflects.later {id : Nat} (reflects : Reflects id draft s) (later : Later s t) : Reflects id draft t :=
  fun u row further => reflects u row (later.next further)

theorem loaded_reflects {id : Nat} (found : s.draft id = some row) (later : Later s t) : Reflects id (loaded row (servicesOf t.services id)) t := by
  intro u last further sound_last there version state
  obtain ⟨mem,rfl⟩ := find_some found
  obtain ⟨listed,same⟩ := find_some there
  obtain ⟨middle,between,one⟩ := later.drafts row mem
  obtain ⟨after,ahead,two⟩ := further.drafts middle between
  cases sound_last.keyed.unique ahead listed ((two.id.trans one.id).trans same.symm)
  have up := one.version
  have more := two.version
  have equal : last.version = row.version := version
  obtain ⟨rfl,services⟩ := two.same (by omega) state
  obtain ⟨rfl,-⟩ := one.same (by omega) state
  exact ⟨rfl,rfl,services.symm⟩

theorem loadDraft_obeys {next : Option Loaded → Code ω Policy Authority} (holding : Holding name held)
    (holds : held db) (after : ∀ t draft, held t → (∀ found, draft = some found → Reflects draftId found t) →
      Obeys (terms p name request) (next draft) t) : Obeys (terms p name request) (loadDraft p session id draftId next) db := by
  refine reading holding holds (fun first still _ relied => ?_) fun _ _ => threw
  split
  · exact after first none still fun _ none_ => nomatch none_
  rename_i row found
  have there := (Option.filter_eq_some_iff.mp found).1
  refine reading holding still (fun second further _ relied => ?_) fun _ _ => threw
  refine after second _ further fun draft same => ?_
  cases same
  exact loaded_reflects there relied.later

theorem changedCatalogServices_obeys {next : List String → Code ω Policy Authority}
    (holding : Holding name held) (handled : ∀ t, held t → Obeys (terms p name request) failed t)
    (after : ∀ t changed, held t → Obeys (terms p name request) (next changed) t) {services : List Reviewed} {changed : List String}
    (holds : held db) : Obeys (terms p name request) (changedCatalogServices p failed next services changed) db := by
  induction services generalizing db changed with
  | nil => exact after db changed holds
  | cons _ _ ih =>
    refine reading holding holds (fun t still _ _ => ?_) handled
    split
    · exact ih still
    exact ih still

theorem refusedWrite_obeys {catalogChanged assignmentsChanged : List String → Outcome} (handled : ∀ t, ¬Effective name t → Obeys (terms p name request) failed t)
    (idle : ¬Effective name db) : Obeys (terms p name request) (refusedWrite p failed services policy catalogChanged assignmentsChanged otherwise) db := by
  refine changedCatalogServices_obeys Holding.idly handled (fun t changed still => ?_) idle
  split
  · exact settled Holding.idly still
  exact reading Holding.idly still (fun _ further _ _ => settled Holding.idly further) handled

theorem resolveRequestPolicy_obeys {changed : List String → Code ω Policy Authority} {next : Policy → Code ω Policy Authority} (holding : Holding name held)
    (holds : held db) (refused : ∀ t list, held t → Obeys (terms p name request) (changed list) t)
    (after : ∀ t policy, held t → Obeys (terms p name request) (next policy) t) :
    Obeys (terms p name request) (resolveRequestPolicy p session projectId services changed next) db := by
  refine reading holding holds (fun t still _ _ => ?_) fun _ _ => threw
  split
  · exact refused t _ still
  exact after t _ still

theorem resolveRequestAuthority_obeys {next : Authority → Code ω Policy Authority} (holding : Holding name held) (holds : held db)
    (refused : ∀ t, held t → Obeys (terms p name request) unavailable t) (after : ∀ t authority, held t → Obeys (terms p name request) (next authority) t) :
    Obeys (terms p name request) (resolveRequestAuthority p session projectId unavailable next) db := by
  refine reading holding holds (fun t still _ _ => ?_) fun _ _ => threw
  split
  · exact refused t still
  exact after t _ still

theorem selectEach_obeys {next : List Selection → Code ω Policy Authority} (holding : Holding name held)
    {chosen done : List SelectionInput} {selected : List Selection} {changed : List String}
    (after : ∀ t services, held t → Selects p (done++chosen) services → Obeys (terms p name request) (next services) t)
    (holds : held db) (so_far : changed = [] → Selects p done selected) :
    Obeys (terms p name request) (selectEach p next chosen selected changed) db := by
  induction chosen generalizing db done selected changed with
  | nil =>
    unfold selectEach
    split
    · rename_i complete
      rw [append_nil] at after
      exact after db selected holds (so_far complete)
    exact settled holding holds
  | cons input rest ih =>
    have onwards : ∀ t services, held t → Selects p ((done++[input])++rest) services → Obeys (terms p name request) (next services) t := by
      rw [append_assoc]
      exact after
    unfold selectEach
    split
    · refine reading holding holds (fun t still _ _ => ?_) fun _ _ => threw
      split
      · exact ih onwards still fun none_ => absurd none_ (append_ne_nil_of_right_ne_nil _ (cons_ne_nil _ _))
      rename_i item found
      split
      · rename_i current
        split
        · exact settled holding still
        rename_i answers valid
        refine ih onwards still fun complete => ?_
        have named := p.catalogItem_named _ _ _ found
        exact rel_append (so_far complete) (.cons ⟨named,current,valid⟩ .nil)
      exact ih onwards still fun none_ => absurd none_ (append_ne_nil_of_right_ne_nil _ (cons_ne_nil _ _))
    exact settled holding holds

theorem Selects.reviewed {input : Input} {services : List Selection} (selects : Selects p input.services services) : reviewed services = input.reviewed := by
  unfold RequestDrafts.reviewed Input.reviewed
  refine Forall₂.rec (by rfl) (fun {one service rest more} same _ ih => ?_) selects
  rw [map_cons,map_cons,ih,same.1,same.2.1]

theorem resolveSelections_obeys {next : List Selection → Code ω Policy Authority} (holding : Holding name held) (holds : held db)
    (after : ∀ t services, held t → Selects p input.services services → Obeys (terms p name request) (next services) t) :
    Obeys (terms p name request) (resolveSelections p input next) db := by
  unfold resolveSelections
  split
  · exact settled holding holds
  have onwards : ∀ t services, held t → Selects p ([]++input.services) services → Obeys (terms p name request) (next services) t :=
    after
  exact selectEach_obeys holding onwards holds fun _ => .nil

theorem replayCreate_obeys (idle : ¬Effective name db) : Obeys (terms p name request) (replayCreate p session existing fingerprint) db := by
  unfold replayCreate
  split
  · exact settled Holding.idly idle
  exact loadDraft_obeys Holding.idly idle fun _ _ still _ => settled Holding.idly still

theorem racedCreate_obeys (idle : ¬Effective name db) : Obeys (terms p name request) (racedCreate p session mutationKey fingerprint) db := by
  refine reading Holding.idly idle (fun t still _ _ => ?_) fun _ _ => threw
  split
  · exact settled Holding.idly still
  exact replayCreate_obeys still
end

section

theorem noted (s : Db ω Policy Authority) (name : Nat) (progress : Progress Policy Authority) : SameTables s (s.note name progress) :=
  ⟨rfl,rfl,rfl,rfl,rfl⟩

theorem noted_steps (change : Change) (effective : Effective name s → Effective name (s.note name progress)) : Steps p name change s (s.note name progress) :=
  (noted s name progress).steps (fun _ different => Function.update_of_ne different ..) effective

section
variable {session : Session}
include session

theorem readback {result : Loaded → Outcome} (answered : ∀ draft, (result draft).refused = false)
    (written : db.progress name = .written) (there : ∃ draft ∈ db.drafts, draft.id = draftId)
    (shows : ∀ t, Careful p name request t → shown p name (p.identity session) draftId t) :
    Obeys (terms p name request) (loadDraft p session (fun db => db.note name .returned) draftId fun draft => .done (draft.elim .unavailable result)) db := by
  intro t relied inside
  refine ⟨⟨⟨(noted _ _ _).sound inside.1,noted_steps _ fun _ => .inr (update_self ..)⟩,?_⟩,threw⟩
  obtain ⟨draft,mem,rfl⟩ := there
  obtain ⟨after,here,follows⟩ := relied.later.drafts draft mem
  have found : t.draft draft.id = some after := by
    rw [←follows.id]
    exact inside.1.keyed.find here
  have visible := shown_accessible (shows t inside.2) (relied.progress.trans written) found
  have kept : (t.draft draft.id).filter (accessible p t.world (p.identity session)) = some after := by
    rw [found]
    exact Option.filter_eq_some_iff.mpr ⟨rfl,visible⟩
  dsimp only
  rw [kept]
  intro _ _ inside_last
  refine ⟨⟨⟨inside_last.1,Steps.rfl⟩,?_⟩,threw⟩
  intro refused
  exact absurd refused (by rw [Option.elim_some,answered]; exact Bool.false_ne_true)

theorem create_obeys (ready : Ready name db) :
    Obeys (terms p name ⟨session,.create input mutationKey⟩) (createServiceRequestDraft p name session input mutationKey) db := by
  refine reading Holding.ready ready (fun first ready_first _ _ => ?_) fun _ _ => threw
  split
  · exact replayCreate_obeys ready_first.idle
  refine resolveRequestPolicy_obeys Holding.ready ready_first (fun _ _ still => settled Holding.ready still) fun second policy ready_second => ?_
  refine resolveRequestAuthority_obeys Holding.ready ready_second (fun _ still => settled Holding.ready still) fun third authority ready_third => ?_
  refine resolveSelections_obeys Holding.ready ready_third fun fourth services ready_fourth selects => ?_
  refine obeys_transact ?_ (fun t inside => ⟨inside.1,Steps.rfl⟩) ?_
  · intro t u _ relied inside done
    have ready_t := Holding.ready.later fourth t ready_fourth relied
    rcases create_batch ready_t.unused done with ⟨made,rfl⟩ | ⟨idle,rfl⟩
    · refine ⟨created_steps ready_t.unused inside.1 selects,?_⟩
      rw [if_neg (by rw [made]; exact Nat.one_ne_zero)]
      refine readback (fun _ => rfl) (update_self ..) ?_ fun _ careful => careful
      exact ⟨_,mem_append_right _ (mem_singleton_self _),rfl⟩
    refine ⟨⟨inside.1,Steps.rfl⟩,?_⟩
    rw [if_pos idle]
    exact refusedWrite_obeys (fun _ still => racedCreate_obeys still) ready_t.idle
  intro t relied _
  exact racedCreate_obeys (Holding.ready.later fourth t ready_fourth relied).idle

theorem save_obeys (ready : Ready name db) : Obeys (terms p name ⟨session,.save draftId expectedVersion input mutationKey⟩)
      (saveServiceRequestDraft p name session draftId expectedVersion input mutationKey) db := by
  refine loadDraft_obeys Holding.ready ready fun zero draft ready_zero _ => ?_
  split
  · exact settled Holding.ready ready_zero
  refine reading Holding.ready ready_zero (fun first ready_first _ _ => ?_) fun _ _ => threw
  split
  · split
    · exact settled Holding.ready ready_first
    · exact loadDraft_obeys Holding.ready ready_first fun _ _ still _ => settled Holding.ready still
  refine resolveRequestPolicy_obeys Holding.ready ready_first (fun _ _ still => settled Holding.ready still) fun second policy ready_second => ?_
  refine resolveRequestAuthority_obeys Holding.ready ready_second (fun _ still => settled Holding.ready still) fun third authority ready_third => ?_
  refine resolveSelections_obeys Holding.ready ready_third fun fourth services ready_fourth selects => ?_
  intro fifth relied inside
  have idle_fifth := (Holding.ready.later fourth fifth ready_fourth relied).idle
  refine ⟨⟨⟨(noted _ _ _).sound inside.1,noted_steps _ fun effective => absurd effective idle_fifth⟩,?_⟩,threw⟩
  have writing : (fifth.note name (.writing policy authority)).progress name = .writing policy authority := update_self ..
  refine obeys_transact ?_ (fun t inside => ⟨inside.1,Steps.rfl⟩) ?_
  · intro t u _ passed inside done
    have writing_t := passed.progress.trans writing
    have idle_t := writing_idle writing_t
    have careful := tight_leaks (Bool.and_eq_true_iff.mp inside.2).2 writing_t
    rcases save_batch inside.1.keyed writing_t selects.reviewed careful done with ⟨row,found,state,version,made,rfl⟩ | ⟨idle,rfl⟩
    · refine ⟨saved_steps inside.1 found state version selects,?_⟩
      rw [if_neg (by rw [made]; exact Nat.one_ne_zero)]
      refine readback (fun _ => rfl) (update_self ..) ?_ fun _ careful => (Bool.and_eq_true_iff.mp careful).1
      obtain ⟨_,same⟩ := find_some found
      exact ⟨_,(amended_drafts _ inside.1.keyed found _).mpr (.inr rfl),same⟩
    refine ⟨⟨(noted _ _ _).sound inside.1,noted_steps _ fun effective => absurd effective idle_t⟩,?_⟩
    rw [if_pos idle]
    exact refusedWrite_obeys (fun _ still => settled Holding.idly still) (reading_idle (update_self ..))
  intro t passed _
  exact settled Holding.idly (writing_idle (passed.progress.trans writing))

theorem replaySubmit_obeys (idle : ¬Effective name db) : Obeys (terms p name request) (replaySubmit p session draftId expectedVersion mutationKey) db := by
  refine reading Holding.idly idle (fun t still _ _ => ?_) fun _ _ => threw
  split
  · exact settled Holding.idly still
  split
  · exact settled Holding.idly still
  exact reading Holding.idly still (fun _ further _ _ => settled Holding.idly further) fun _ _ => threw

theorem request_readback (written : db.progress name = .written) (effected : Effected name (.submit draftId expectedVersion mutationKey) db) :
    Obeys (terms p name ⟨session,.submit draftId expectedVersion mutationKey⟩)
      (loadSubmittedRequest p session (fun db => db.note name .returned) (some name) fun request => .done (request.elim .unavailable .submitted)) db := by
  intro t relied inside
  refine ⟨⟨⟨(noted t name _).sound inside.1,noted_steps _ fun _ => .inr (update_self ..)⟩,?_⟩,threw⟩
  have known := named_role inside.2 (relied.progress.trans written)
  obtain ⟨draft,mem,-,-,state,own⟩ := effected.later relied.later
  obtain ⟨row,listed,same,-⟩ := inside.1.submitted draft mem state
  have there : t.requests.find? (fun row => decide (some row.id = some name)) ≠ none := by
    intro missing
    refine find?_eq_none.mp missing row listed (decide_eq_true ?_)
    exact same.symm.trans own
  obtain ⟨_,found⟩ := Option.ne_none_iff_exists'.mp there
  dsimp only
  rw [if_pos known,found]
  exact fun refused => nomatch refused

theorem submit_obeys (ready : Ready name db) : Obeys (terms p name ⟨session,.submit draftId expectedVersion mutationKey⟩)
      (submitServiceRequestDraft p name session draftId expectedVersion mutationKey) db := by
  refine loadDraft_obeys Holding.ready ready fun first found ready_first reflects => ?_
  cases found with
  | none => exact settled Holding.ready ready_first
  | some draft =>
    have holding : Holding name fun t : Db ω Policy Authority => Ready name t ∧ Reflects draftId draft t :=
      ⟨fun s t held relied => ⟨Holding.ready.later s t held.1 relied,held.2.later relied.later⟩,fun _ held => held.1.idle⟩
    have held := And.intro ready_first (reflects draft rfl)
    dsimp only
    split
    · exact replaySubmit_obeys ready_first.idle
    split
    · exact settled Holding.ready ready_first
    rename_i same
    have version : draft.version = expectedVersion := Decidable.not_not.mp same
    split
    · exact settled Holding.ready ready_first
    refine changedCatalogServices_obeys holding (fun _ _ => threw) (fun second changed held_second => ?_) held
    split
    · exact settled holding held_second
    refine resolveRequestPolicy_obeys holding held_second (fun _ _ still => settled holding still) fun third policy held_third => ?_
    refine resolveRequestAuthority_obeys holding held_third (fun _ still => settled holding still) fun fourth authority held_fourth => ?_
    refine reading holding held_fourth (fun fifth held_fifth _ _ => ?_) fun _ _ => threw
    split
    · exact settled holding held_fifth
    refine obeys_transact ?_ (fun t inside => ⟨inside.1,Steps.rfl⟩) ?_
    · intro t u _ relied inside done
      have held_t := holding.later fifth t held_fifth relied
      rcases submit_batch held_t.1.unused done with ⟨row,there,state,current,made,rfl⟩ | ⟨idle,rfl⟩
      · have shows := held_t.2 t row SameTables.rfl.later inside.1 there (current.trans version.symm) state
        refine ⟨submitted_steps held_t.1.unused inside.1 there state current shows,?_⟩
        rw [if_neg (by rw [made]; exact Nat.one_ne_zero)]
        refine request_readback (update_self ..) ?_
        obtain ⟨_,own⟩ := find_some there
        exact ⟨_,(amended_drafts _ inside.1.keyed there _).mpr (.inr rfl),own,current,rfl,rfl⟩
      refine ⟨⟨inside.1,Steps.rfl⟩,?_⟩
      rw [if_pos idle]
      exact refusedWrite_obeys (fun _ still => settled Holding.idly still) held_t.1.idle
    intro t relied _
    exact settled holding (holding.later fifth t held_fifth relied)
end
end

theorem discipline : Discipline (setting p (Careful p)) Sound (terms p) where
  same _ _ _ := SameTables.rfl.rely rfl
  trans _ _ := Rely.next
  stable _ _ := fun posted relied refused => relied.effective (posted refused)
  inside _ _ _ sound careful := ⟨sound,careful⟩
  entered name request db sound entered := by
    have ready : Ready name db := ⟨entered.1,entered.2⟩
    obtain ⟨_,change⟩ := request
    cases change with
    | create => exact create_obeys ready
    | save => exact save_obeys ready
    | submit => exact submit_obeys ready
  outside s t sound moved := by
    obtain ⟨world,rfl⟩ := moved
    have same : SameTables s { s with world := world } := ⟨rfl,rfl,rfl,rfl,rfl⟩
    exact ⟨same.sound sound,fun _ _ => same.rely rfl⟩
  kept name request s t next _ _ guaranteed := by
    obtain ⟨sound,steps⟩ := guaranteed
    exact ⟨sound,fun other different _ => ⟨steps.later,steps.fresh other different,steps.progress other different⟩⟩
end LedgeTopOps.RequestDrafts
