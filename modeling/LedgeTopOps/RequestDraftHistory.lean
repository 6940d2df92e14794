import LedgeTopOps.RequestDraftBatches

namespace LedgeTopOps.RequestDrafts
open List KeyedRows
open Function (update_of_ne update_self)

section
variable {rows : List ServiceRow}

theorem servicesOf_same (same : (rows.filter fun row => decide (row.owner = owner)) = more.filter fun row => decide (row.owner = owner)) :
    servicesOf rows owner = servicesOf more owner := by
  unfold servicesOf
  rw [same]

theorem numbered_owner (mem : row ∈ numbered owner services) : row.owner = owner := by
  obtain ⟨_,-,rfl⟩ := mem_map.mp mem
  rfl

theorem servicesOf_numbered : servicesOf (numbered owner services) owner = services := by
  unfold servicesOf
  have all : (numbered owner services).filter (fun row => decide (row.owner = owner)) = numbered owner services :=
    filter_eq_self.mpr fun row mem => decide_eq_true (numbered_owner mem)
  have ordered : (numbered owner services).Pairwise fun left right => left.ordinal ≤ right.ordinal := by
    have positions : ((services.zipIdx).map Prod.snd).Pairwise (· < ·) := by
      rw [zipIdx_map_snd]
      exact pairwise_lt_range'
    unfold numbered
    rw [pairwise_map] at positions ⊢
    exact positions.imp fun before => Nat.le_of_lt before
  rw [all,ordered.insertionSort_eq]
  unfold numbered
  rw [map_map]
  exact zipIdx_map_fst 0 services

theorem servicesOf_append (absent : ∀ row ∈ more, row.owner ≠ owner) : servicesOf (rows++more) owner = servicesOf rows owner := by
  refine servicesOf_same ?_
  have none_ : more.filter (fun row => decide (row.owner = owner)) = [] :=
    filter_eq_nil_iff.mpr fun row mem same => absent row mem (of_decide_eq_true same)
  rw [filter_append,none_,append_nil]

theorem servicesOf_added (absent : ∀ row ∈ rows, row.owner ≠ owner) : servicesOf (rows++numbered owner services) owner = services := by
  refine (servicesOf_same ?_).trans servicesOf_numbered
  have none_ : rows.filter (fun row => decide (row.owner = owner)) = [] :=
    filter_eq_nil_iff.mpr fun row mem same => absent row mem (of_decide_eq_true same)
  rw [filter_append,none_,nil_append]

theorem servicesOf_other (different : other ≠ owner) :
    servicesOf ((rows.filter fun row => decide (row.owner ≠ owner))++numbered owner services) other = servicesOf rows other := by
  rw [servicesOf_append fun row mem => by rw [numbered_owner mem]; exact different.symm]
  refine servicesOf_same ?_
  rw [filter_filter]
  refine filter_congr fun row _ => ?_
  by_cases same : row.owner = other
  · simp [same,different]
  simp [same]

theorem servicesOf_replaced : servicesOf ((rows.filter fun row => decide (row.owner ≠ owner))++numbered owner services) owner = services :=
  servicesOf_added fun _ mem => of_decide_eq_true (mem_filter.mp mem).2
end

def Change.input : Change → Option Input
  | .create input _ | .save _ _ input _ => some input
  | .submit _ _ _ => none

variable {ω Session Policy Authority : Type}

def Selects (p : Portal ω Session Policy Authority) (chosen : List SelectionInput) (services : List Selection) : Prop :=
  Forall₂ (fun one service => service.item.publicId = one.publicId ∧ service.item.sourceVersion = one.sourceVersion ∧
    p.validateAnswers service.item.questions one.answers true = some service.answers) chosen services

structure Authored (p : Portal ω Session Policy Authority) (input : Input) (draft : Draft) (services : List Selection) : Prop where
  fields : draft.fields = input.fields
  project : draft.projectId = input.fields.projectId
  area : draft.areaGeoJson = input.areaGeoJson
  squareMeters : draft.areaSquareMeters = input.areaGeoJson.map p.squareMeters
  acres : draft.areaAcres = (input.areaGeoJson.map p.squareMeters).map p.acres
  services : Selects p input.services services

structure Copies (request : RequestRow) (draft : Draft) : Prop where
  fields : request.fields = { draft.fields with projectId := draft.projectId }
  createdBy : request.createdBy = draft.createdBy
  area : request.areaGeoJson = draft.areaGeoJson

structure Sound (db : Db ω Policy Authority) : Prop where
  keyed : Keyed Draft.id db.drafts
  mutations : ∀ row ∈ db.mutations, ∃ draft ∈ db.drafts, draft.id = row.draftId ∧ row.resultingVersion ≤ draft.version
  versions : ∀ left ∈ db.mutations, ∀ right ∈ db.mutations, left.draftId = right.draftId →
    left.resultingVersion = right.resultingVersion → left = right
  submitted : ∀ draft ∈ db.drafts, draft.state = .submitted → ∃ request ∈ db.requests,
    draft.submittedRequestId = some request.id ∧ Copies request draft ∧
      servicesOf db.requestServices request.id = servicesOf db.services draft.id
  requests : ∀ left ∈ db.requests, ∀ right ∈ db.requests, left.id = right.id → left = right

-- A draft later on: the same row, or a later version, or the same version submitted.
structure Follows (s t : Db ω Policy Authority) (draft after : Draft) : Prop where
  id : after.id = draft.id
  version : draft.version ≤ after.version
  submitted : draft.state = .submitted → after = draft ∧ servicesOf t.services draft.id = servicesOf s.services draft.id
  same : after.version = draft.version → after.state = .draft →
    after = draft ∧ servicesOf t.services draft.id = servicesOf s.services draft.id

structure Later (s t : Db ω Policy Authority) : Prop where
  drafts : ∀ draft ∈ s.drafts, ∃ after ∈ t.drafts, Follows s t draft after
  mutations : ∀ row ∈ s.mutations, row ∈ t.mutations

structure SameTables (s t : Db ω Policy Authority) : Prop where
  drafts : t.drafts = s.drafts
  services : t.services = s.services
  mutations : t.mutations = s.mutations
  requests : t.requests = s.requests
  requestServices : t.requestServices = s.requestServices

def Effective (name : Nat) (db : Db ω Policy Authority) : Prop := db.progress name = .written ∨ db.progress name = .returned

def Effected (name : Nat) (change : Change) (db : Db ω Policy Authority) : Prop := match change with
  | .create _ _ => ∃ draft ∈ db.drafts, draft.id = name
  | .save draftId expectedVersion _ _ =>
    ∃ row ∈ db.mutations, row.author = name ∧ row.draftId = draftId ∧ row.resultingVersion = expectedVersion+1
  | .submit draftId expectedVersion _ =>
    ∃ draft ∈ db.drafts, draft.id = draftId ∧ draft.version = expectedVersion ∧ draft.state = .submitted ∧
      draft.submittedRequestId = some name

-- A draft row that has the version it had, but may be submitted.
structure Stays (p : Portal ω Session Policy Authority) (s t : Db ω Policy Authority) (draft after : Draft) : Prop where
  id : after.id = draft.id
  version : after.version = draft.version
  author : after.author = draft.author
  services : servicesOf t.services after.id = servicesOf s.services draft.id
  authored : ∀ input services, Authored p input draft services → Authored p input after services

structure Renewed (p : Portal ω Session Policy Authority) (name : Nat) (change : Change) (s t : Db ω Policy Authority) (after : Draft) :
    Prop where
  author : after.author = name
  version : ∀ draft ∈ s.drafts, draft.id = after.id → draft.version < after.version
  authored : ∃ input, change.input = some input ∧ Authored p input after (servicesOf t.services after.id)

def Stems (p : Portal ω Session Policy Authority) (name : Nat) (change : Change) (s t : Db ω Policy Authority) (after : Draft) : Prop :=
  (∃ draft ∈ s.drafts, Stays p s t draft after) ∨ Renewed p name change s t after

structure Steps (p : Portal ω Session Policy Authority) (name : Nat) (change : Change) (s t : Db ω Policy Authority) : Prop where
  later : Later s t
  stems : ∀ draft ∈ t.drafts, Stems p name change s t draft
  fresh : ∀ other, other ≠ name → Unused other s → Unused other t
  progress : ∀ other, other ≠ name → t.progress other = s.progress other
  stays : Effective name s → Effective name t
  effect : SameTables s t ∨ (Effective name t ∧ Effected name change t)

variable {s : Db ω Policy Authority} {name : Nat} {change : Change}

theorem Follows.rfl (services : servicesOf t.services draft.id = servicesOf s.services draft.id) :
    Follows s t draft draft := ⟨Eq.refl _,Nat.le_refl _,fun _ => ⟨Eq.refl _,services⟩,fun _ _ => ⟨Eq.refl _,services⟩⟩

theorem Follows.next (one : Follows s t first second) (two : Follows t u second third) :
    Follows s u first third where
  id := two.id.trans one.id
  version := one.version.trans two.version
  submitted done := by
    obtain ⟨rfl,services⟩ := one.submitted done
    obtain ⟨rfl,further⟩ := two.submitted done
    exact ⟨Eq.refl _,further.trans services⟩
  same equal state := by
    have up := one.version
    have more := two.version
    obtain ⟨rfl,further⟩ := two.same (by omega) state
    obtain ⟨rfl,services⟩ := one.same (by omega) state
    exact ⟨Eq.refl _,further.trans services⟩

theorem SameTables.rfl : SameTables s s := ⟨Eq.refl _,Eq.refl _,Eq.refl _,Eq.refl _,Eq.refl _⟩

theorem SameTables.later (same : SameTables s t) : Later s t := by
  refine ⟨fun draft mem => ⟨draft,?_,Follows.rfl ?_⟩,?_⟩
  · rw [same.drafts]
    exact mem
  · rw [same.services]
  rw [same.mutations]
  exact fun row mem => mem

theorem Later.next (first : Later s t) (second : Later t u) : Later s u := by
  refine ⟨fun draft mem => ?_,fun row mem => second.mutations row (first.mutations row mem)⟩
  obtain ⟨middle,there,one⟩ := first.drafts draft mem
  obtain ⟨last,found,two⟩ := second.drafts middle there
  exact ⟨last,found,one.next two⟩

theorem SameTables.unused (same : SameTables s t) (unused : Unused name s) : Unused name t := by
  refine ⟨?_,?_,?_,?_⟩
  · rw [same.drafts]
    exact unused.drafts
  · rw [same.requests]
    exact unused.requests
  · rw [same.services]
    exact unused.services
  rw [same.requestServices]
  exact unused.requestServices

theorem SameTables.sound (same : SameTables s t) (sound : Sound s) : Sound t := by
  obtain ⟨keyed,mutations,versions,submitted,requests⟩ := sound
  refine ⟨?_,?_,?_,?_,?_⟩
  · rw [same.drafts]
    exact keyed
  · rw [same.mutations,same.drafts]
    exact mutations
  · rw [same.mutations]
    exact versions
  · rw [same.drafts,same.requests,same.requestServices,same.services]
    exact submitted
  rw [same.requests]
  exact requests

theorem Stays.rfl (services : servicesOf t.services draft.id = servicesOf s.services draft.id) :
    Stays p s t draft draft := ⟨Eq.refl _,Eq.refl _,Eq.refl _,services,fun _ _ authored => authored⟩

theorem SameTables.stems (same : SameTables s t) : ∀ draft ∈ t.drafts, Stems p name change s t draft := by
  intro draft mem
  rw [same.drafts] at mem
  exact .inl ⟨draft,mem,Stays.rfl (by rw [same.services])⟩

theorem SameTables.steps (same : SameTables s t) (progress : ∀ other, other ≠ name → t.progress other = s.progress other)
    (stays : Effective name s → Effective name t) : Steps p name change s t :=
  ⟨same.later,same.stems,fun _ _ unused => same.unused unused,progress,stays,.inl same⟩

theorem Steps.rfl : Steps p name change s s := SameTables.rfl.steps (fun _ _ => Eq.refl _) id

theorem Effected.later (effected : Effected name change s) (later : Later s t) : Effected name change t := by
  cases change with
  | create =>
    obtain ⟨draft,mem,same⟩ := effected
    obtain ⟨after,found,follows⟩ := later.drafts draft mem
    exact ⟨after,found,follows.id.trans same⟩
  | save =>
    obtain ⟨row,mem,facts⟩ := effected
    exact ⟨row,later.mutations row mem,facts⟩
  | submit =>
    obtain ⟨draft,mem,same,version,state,request⟩ := effected
    obtain ⟨after,found,follows⟩ := later.drafts draft mem
    obtain ⟨rfl,-⟩ := follows.submitted state
    exact ⟨after,found,same,version,state,request⟩

variable {id expectedVersion : Nat} {mutationKey : String} {input : Input} {services : List Selection}

theorem created_steps (fresh : Unused name s) (sound : Sound s) (selects : Selects p input.services services) :
    Sound (createdDb p name identity input services mutationKey s) ∧
      Steps p name (.create input mutationKey) s (createdDb p name identity input services mutationKey s) := by
  have kept : ∀ draft ∈ s.drafts, servicesOf (s.services++numbered name services) draft.id = servicesOf s.services draft.id := by
    intro draft mem
    refine servicesOf_append fun row there => ?_
    rw [numbered_owner there]
    exact (fresh.drafts draft mem).symm
  have written : (createdDb p name identity input services mutationKey s).progress name = .written := update_self ..
  refine ⟨⟨?_,?_,sound.versions,?_,sound.requests⟩,⟨⟨?_,fun row mem => mem⟩,?_,?_,?_,fun _ => .inl written,.inr ⟨.inl written,?_⟩⟩⟩
  · exact sound.keyed.add fun draft mem => fresh.drafts draft mem
  · intro row mem
    obtain ⟨draft,there,facts⟩ := sound.mutations row mem
    exact ⟨draft,mem_append_left _ there,facts⟩
  · intro draft mem state
    rcases mem_snoc.mp mem with old | rfl
    · obtain ⟨request,there,submitted,copies,same⟩ := sound.submitted draft old state
      exact ⟨request,there,submitted,copies,same.trans (kept draft old).symm⟩
    cases state
  · exact fun draft mem => ⟨draft,mem_append_left _ mem,Follows.rfl (kept draft mem)⟩
  · intro draft mem
    rcases mem_snoc.mp mem with old | rfl
    · exact .inl ⟨draft,old,Stays.rfl (kept draft old)⟩
    refine .inr ⟨Eq.refl _,fun draft there same => absurd same (fresh.drafts draft there),input,Eq.refl _,
      ⟨Eq.refl _,Eq.refl _,Eq.refl _,Eq.refl _,Eq.refl _,?_⟩⟩
    have own : servicesOf (s.services++numbered name services) name = services :=
      servicesOf_added fun row there => fresh.services row there
    show Selects p input.services (servicesOf (s.services++numbered name services) name)
    rw [own]
    exact selects
  · intro _ different unused
    refine ⟨?_,unused.requests,?_,unused.requestServices⟩
    · intro draft mem
      rcases mem_snoc.mp mem with old | rfl
      · exact unused.drafts draft old
      exact different.symm
    intro row mem
    rcases mem_append.mp mem with old | new
    · exact unused.services row old
    rw [numbered_owner new]
    exact different.symm
  · exact fun other different => update_of_ne different ..
  exact ⟨_,mem_append_right _ (mem_singleton_self _),Eq.refl _⟩

theorem amended_drafts (change : Draft → Draft) (keyed : Keyed Draft.id s.drafts) (found : s.draft id = some draft) :
    ∀ row, row ∈ amend Draft.id s.drafts id change ↔ (row ∈ s.drafts ∧ row.id ≠ id) ∨ row = change draft := by
  intro _
  obtain ⟨mem,rfl⟩ := find_some found
  refine mem_amend.trans ⟨?_,?_⟩
  · intro there
    rcases there with rest | ⟨old,here,same,new⟩
    · exact .inl rest
    cases keyed.unique here mem same
    exact .inr new.symm
  intro there
  rcases there with rest | rfl
  · exact .inl rest
  exact .inr ⟨draft,mem,Eq.refl _,Eq.refl _⟩

theorem saved_steps (sound : Sound s) (found : s.draft id = some draft) (state : draft.state = .draft)
    (version : draft.version = expectedVersion) (selects : Selects p input.services services) :
    Sound (savedDb p name id expectedVersion input services mutationKey s) ∧
      Steps p name (.save id expectedVersion input mutationKey) s (savedDb p name id expectedVersion input services mutationKey s) := by
  have rows := amended_drafts (saved p name input mutationKey) sound.keyed found
  obtain ⟨mem,rfl⟩ := find_some found
  have written : (savedDb p name draft.id expectedVersion input services mutationKey s).progress name = .written :=
    update_self ..
  have kept : ∀ other, other ≠ draft.id →
      servicesOf (savedDb p name draft.id expectedVersion input services mutationKey s).services other = servicesOf s.services other :=
    fun other different => servicesOf_other different
  refine ⟨⟨?_,?_,?_,?_,sound.requests⟩,⟨⟨?_,?_⟩,?_,?_,?_,fun _ => .inl written,.inr ⟨.inl written,?_⟩⟩⟩
  · exact sound.keyed.amend _ fun _ _ _ => Eq.refl _
  · intro row there
    rcases mem_snoc.mp there with old | rfl
    · obtain ⟨owner,here,same,bound⟩ := sound.mutations row old
      by_cases own : owner.id = draft.id
      · cases sound.keyed.unique here mem own
        exact ⟨_,(rows _).mpr (.inr (Eq.refl _)),same,Nat.le_succ_of_le bound⟩
      exact ⟨owner,(rows _).mpr (.inl ⟨here,own⟩),same,bound⟩
    refine ⟨_,(rows _).mpr (.inr (Eq.refl _)),Eq.refl _,?_⟩
    show expectedVersion+1 ≤ draft.version+1
    omega
  · have above : ∀ row ∈ s.mutations, row.draftId = draft.id → row.resultingVersion ≤ expectedVersion := by
      intro row there own
      obtain ⟨owner,here,same,bound⟩ := sound.mutations row there
      cases sound.keyed.unique here mem (same.trans own)
      omega
    intro left first right second owned equal
    rcases mem_snoc.mp first with old | rfl
    · rcases mem_snoc.mp second with older | rfl
      · exact sound.versions left old right older owned equal
      · have bound := above left old owned
        change left.resultingVersion = expectedVersion+1 at equal
        omega
    rcases mem_append.mp second with older | newer
    · have bound := above right older owned.symm
      change expectedVersion+1 = right.resultingVersion at equal
      omega
    exact (mem_singleton.mp newer).symm
  · intro row there submitted
    rcases (rows row).mp there with ⟨old,different⟩ | rfl
    · obtain ⟨request,here,asked,copies,same⟩ := sound.submitted row old submitted
      exact ⟨request,here,asked,copies,same.trans (kept row.id different).symm⟩
    cases state.symm.trans submitted
  · intro row there
    by_cases own : row.id = draft.id
    · cases sound.keyed.unique there mem own
      refine ⟨_,(rows _).mpr (.inr (Eq.refl _)),Eq.refl _,Nat.le_succ _,?_,?_⟩
      · exact fun submitted => nomatch state.symm.trans submitted
      intro equal _
      exact absurd equal (Nat.succ_ne_self _)
    exact ⟨row,(rows _).mpr (.inl ⟨there,own⟩),Follows.rfl (kept row.id own)⟩
  · exact fun row there => mem_append_left _ there
  · intro row there
    rcases (rows row).mp there with ⟨old,different⟩ | rfl
    · exact .inl ⟨row,old,Stays.rfl (kept row.id different)⟩
    have later : ∀ old ∈ s.drafts, old.id = draft.id → old.version < draft.version+1 := by
      intro _ there same
      cases sound.keyed.unique there mem same
      exact Nat.lt_succ_self _
    refine .inr ⟨Eq.refl _,later,input,Eq.refl _,⟨Eq.refl _,Eq.refl _,Eq.refl _,Eq.refl _,Eq.refl _,?_⟩⟩
    have own : servicesOf (savedDb p name draft.id expectedVersion input services mutationKey s).services draft.id = services :=
      servicesOf_replaced
    show Selects p input.services (servicesOf _ draft.id)
    rw [own]
    exact selects
  · intro _ _ unused
    refine ⟨?_,unused.requests,?_,unused.requestServices⟩
    · intro row there
      rcases (rows row).mp there with ⟨old,-⟩ | rfl
      · exact unused.drafts row old
      exact unused.drafts draft mem
    intro row there
    rcases mem_append.mp there with old | new
    · exact unused.services row (mem_filter.mp old).1
    rw [numbered_owner new]
    exact unused.drafts draft mem
  · exact fun other different => update_of_ne different ..
  exact ⟨_,mem_append_right _ (mem_singleton_self _),Eq.refl _,Eq.refl _,Eq.refl _⟩

structure Shows (db : Db ω Policy Authority) (draft : Loaded) (row : Draft) : Prop where
  fields : draft.fields = row.fields
  area : draft.areaGeoJson = row.areaGeoJson
  services : draft.services = servicesOf db.services row.id

theorem submitted_steps (fresh : Unused name s) (sound : Sound s) (found : s.draft id = some row)
    (state : row.state = .draft) (version : row.version = expectedVersion) (shows : Shows s draft row) :
    Sound (submittedDb p name id expectedVersion draft row mutationKey s) ∧
      Steps p name (.submit id expectedVersion mutationKey) s (submittedDb p name id expectedVersion draft row mutationKey s) := by
  have rows := amended_drafts (retired p name id expectedVersion mutationKey) sound.keyed found
  obtain ⟨mem,rfl⟩ := find_some found
  have written : (submittedDb p name row.id expectedVersion draft row mutationKey s).progress name = .written :=
    update_self ..
  have copied : servicesOf (s.requestServices++numbered name draft.services) name = draft.services :=
    servicesOf_added fun other there => fresh.requestServices other there
  have kept : ∀ request ∈ s.requests, servicesOf (s.requestServices++numbered name draft.services) request.id =
      servicesOf s.requestServices request.id := by
    intro request mem
    refine servicesOf_append fun other there => ?_
    rw [numbered_owner there]
    exact (fresh.requests request mem).symm
  refine ⟨⟨?_,?_,sound.versions,?_,?_⟩,⟨⟨?_,fun _ there => there⟩,?_,?_,?_,fun _ => .inl written,.inr ⟨.inl written,?_⟩⟩⟩
  · exact sound.keyed.amend _ fun _ _ _ => Eq.refl _
  · intro mutation there
    obtain ⟨owner,here,same,bound⟩ := sound.mutations mutation there
    by_cases own : owner.id = row.id
    · cases sound.keyed.unique here mem own
      exact ⟨_,(rows _).mpr (.inr (Eq.refl _)),same,bound⟩
    exact ⟨owner,(rows _).mpr (.inl ⟨here,own⟩),same,bound⟩
  · intro other there submitted
    rcases (rows other).mp there with ⟨old,different⟩ | rfl
    · obtain ⟨request,here,asked,copies,same⟩ := sound.submitted other old submitted
      exact ⟨request,mem_append_left _ here,asked,copies,(kept request here).trans same⟩
    refine ⟨_,mem_append_right _ (mem_singleton_self _),Eq.refl _,⟨?_,Eq.refl _,shows.area⟩,copied.trans shows.services⟩
    show { draft.fields with projectId := row.projectId } = { row.fields with projectId := row.projectId }
    rw [shows.fields]
  · intro left first right second equal
    rcases mem_snoc.mp first with old | rfl
    · rcases mem_snoc.mp second with older | rfl
      · exact sound.requests left old right older equal
      · exact absurd equal (fresh.requests left old)
    rcases mem_append.mp second with older | newer
    · exact absurd equal.symm (fresh.requests right older)
    exact (mem_singleton.mp newer).symm
  · intro other there
    by_cases own : other.id = row.id
    · cases sound.keyed.unique there mem own
      refine ⟨_,(rows _).mpr (.inr (Eq.refl _)),Eq.refl _,Nat.le_refl _,?_,?_⟩
      · exact fun submitted => nomatch state.symm.trans submitted
      exact fun _ drafted => nomatch drafted
    exact ⟨other,(rows _).mpr (.inl ⟨there,own⟩),Follows.rfl (Eq.refl _)⟩
  · intro other there
    rcases (rows other).mp there with ⟨old,-⟩ | rfl
    · exact .inl ⟨other,old,Stays.rfl (Eq.refl _)⟩
    exact .inl ⟨row,mem,Eq.refl _,Eq.refl _,Eq.refl _,Eq.refl _,fun _ _ authored =>
      ⟨authored.fields,authored.project,authored.area,authored.squareMeters,authored.acres,authored.services⟩⟩
  · intro _ different unused
    refine ⟨?_,?_,unused.services,?_⟩
    · intro draft there
      rcases (rows draft).mp there with ⟨old,-⟩ | rfl
      · exact unused.drafts draft old
      exact unused.drafts row mem
    · intro request there
      rcases mem_snoc.mp there with old | rfl
      · exact unused.requests request old
      exact different.symm
    intro service there
    rcases mem_append.mp there with old | new
    · exact unused.requestServices service old
    rw [numbered_owner new]
    exact different.symm
  · exact fun other different => update_of_ne different ..
  exact ⟨_,(rows _).mpr (.inr (Eq.refl _)),Eq.refl _,version,Eq.refl _,Eq.refl _⟩
end LedgeTopOps.RequestDrafts
