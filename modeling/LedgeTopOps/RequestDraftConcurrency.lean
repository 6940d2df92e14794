import LedgeTopOps.RequestDraftAtomicity

namespace LedgeTopOps.RequestDrafts
open StepRuns AtomicPrograms
open List (replicate)

section
variable {ω Session Policy Authority : Type} (p : Portal ω Session Policy Authority)

abbrev Calls (ω Session Policy Authority : Type) := System (Db ω Policy Authority) Nat (Request Session) Outcome
abbrev Taken (ω Session Policy Authority : Type) := Transition (Calls ω Session Policy Authority) (Event Nat (Request Session))

def Requested (name : Nat) (event : Event Nat (Request Session)) : Prop := event = .call name ∨ event = .failed name

def Changed (history : List (Taken ω Session Policy Authority)) (name : Nat) : Prop :=
  ∃ taken ∈ history, Requested name taken.event ∧ ¬SameTables taken.before.store taken.after.store

def Versioned (taken : Taken ω Session Policy Authority) (draft : Draft) : Prop :=
  (∃ old ∈ taken.before.store.drafts, old.id = draft.id ∧ old.version = draft.version ∧ old.author = draft.author) ∨
    (taken.event = .call draft.author ∧ ∀ old ∈ taken.before.store.drafts, old.id = draft.id → old.version < draft.version)

structure Requests (db : Db ω Policy Authority) (name draftId expectedVersion : Nat) (draft : Draft) (row : RequestRow) : Prop where
  id : draft.id = draftId
  version : draft.version = expectedVersion
  state : draft.state = .submitted
  submittedRequestId : draft.submittedRequestId = some name
  named : row.id = name
  copies : Copies row draft
  services : servicesOf db.requestServices row.id = servicesOf db.services draft.id

structure Atomic (history : List (Taken ω Session Policy Authority)) (final : Calls ω Session Policy Authority) : Prop where
  authored : ∀ draft ∈ final.store.drafts, ∃ request program input, final.programs draft.author = some (request,program) ∧
    request.change.input = some input ∧ Authored p input draft (servicesOf final.store.services draft.id)
  versioned : ∀ taken ∈ history, ∀ draft ∈ taken.after.store.drafts, Versioned taken draft
  refused : ∀ name request outcome, final.programs name = some (request,.done outcome) → outcome.refused = true → ¬Changed history name
  saves : ∀ one other session asked draftId expectedVersion input wanted mutationKey key first second,
    final.programs one = some (⟨session,.save draftId expectedVersion input mutationKey⟩,first) →
    final.programs other = some (⟨asked,.save draftId expectedVersion wanted key⟩,second) →
    Changed history one → Changed history other → one = other
  submits : ∀ one other session asked draftId expectedVersion again mutationKey key first second,
    final.programs one = some (⟨session,.submit draftId expectedVersion mutationKey⟩,first) →
    final.programs other = some (⟨asked,.submit draftId again key⟩,second) →
    Changed history one → Changed history other → one = other
  submitted : ∀ taken ∈ history, ∀ draft ∈ taken.after.store.drafts, draft.state = .submitted →
    draft ∈ final.store.drafts ∧ servicesOf final.store.services draft.id = servicesOf taken.after.store.services draft.id
  requests : ∀ name session draftId expectedVersion mutationKey program,
    final.programs name = some (⟨session,.submit draftId expectedVersion mutationKey⟩,program) → Changed history name →
    ∃ draft ∈ final.store.drafts, ∃ row ∈ final.store.requests, Requests final.store name draftId expectedVersion draft row

variable {p} {before after final : Calls ω Session Policy Authority} {event : Event Nat (Request Session)}
  {history : List (Taken ω Session Policy Authority)}

section
variable (orderly : Orderly Sound (terms p) before) (moved : Step (setting p (Careful p)) before event after)
include orderly moved

theorem step_tables : (SameTables before.store after.store ∧ after.store.progress = before.store.progress) ∨
      ∃ name request program, event = .call name ∧ after.programs name = some (request,program) ∧ Steps p name request.change before.store after.store := by
  rcases discipline.effect orderly moved with same | ⟨-,world,same⟩ | ⟨name,request,program,called,stored,-,guaranteed⟩
  · rw [same]
    exact .inl ⟨SameTables.rfl,rfl⟩
  · rw [same]
    exact .inl ⟨⟨rfl,rfl,rfl,rfl,rfl⟩,rfl⟩
  exact .inr ⟨name,request,program,called,stored,guaranteed.2⟩

theorem step_later : Later before.store after.store := by
  rcases step_tables orderly moved with ⟨same,-⟩ | ⟨_,_,_,-,-,steps⟩
  · exact same.later
  exact steps.later

theorem step_effective (name : Nat) (effective : Effective name before.store) : Effective name after.store := by
  rcases step_tables orderly moved with ⟨-,same⟩ | ⟨other,_,_,-,-,steps⟩
  · unfold Effective
    rw [same]
    exact effective
  by_cases own : name = other
  · subst own
    exact steps.stays effective
  unfold Effective
  rw [steps.progress name own]
  exact effective
end

def Author (p : Portal ω Session Policy Authority) (system : Calls ω Session Policy Authority) (draft : Draft) : Prop :=
  ∃ request program input, system.programs draft.author = some (request,program) ∧ request.change.input = some input ∧
    Authored p input draft (servicesOf system.store.services draft.id)

section
variable (orderly : Orderly Sound (terms p) before) (moved : Step (setting p (Careful p)) before event after)
include orderly moved

theorem step_authored (authored : ∀ draft ∈ before.store.drafts, Author p before draft) : ∀ draft ∈ after.store.drafts, Author p after draft := by
  intro draft mem
  rcases step_tables orderly moved with ⟨same,-⟩ | ⟨name,request,program,-,stored,steps⟩
  · rw [same.drafts] at mem
    obtain ⟨request,_,input,stored,given,own⟩ := authored draft mem
    obtain ⟨further,stands⟩ := moved.stands stored
    refine ⟨request,further,input,stands,given,?_⟩
    rw [same.services]
    exact own
  rcases steps.stems draft mem with ⟨old,there,stays⟩ | ⟨own,-,input,given,made⟩
  · obtain ⟨asked,_,input,found,given,own⟩ := authored old there
    obtain ⟨last,stands⟩ := moved.stands found
    refine ⟨asked,last,input,by rw [stays.author]; exact stands,given,?_⟩
    rw [stays.services]
    exact stays.authored _ _ own
  exact ⟨request,program,input,by rw [own]; exact stored,given,made⟩

theorem step_versioned : ∀ draft ∈ after.store.drafts, Versioned ⟨before,event,after⟩ draft := by
  intro draft mem
  rcases step_tables orderly moved with ⟨same,-⟩ | ⟨name,request,program,called,-,steps⟩
  · rw [same.drafts] at mem
    exact .inl ⟨draft,mem,rfl,rfl,rfl⟩
  rcases steps.stems draft mem with ⟨old,there,stays⟩ | ⟨own,later,-⟩
  · exact .inl ⟨old,there,stays.id.symm,stays.version.symm,stays.author.symm⟩
  exact .inr ⟨by rw [own]; exact called,later⟩
end

def Effects (system : Calls ω Session Policy Authority) (name : Nat) : Prop :=
  ∃ request program, system.programs name = some (request,program) ∧ Effective name system.store ∧ Effected name request.change system.store

section
variable (orderly : Orderly Sound (terms p) before) (moved : Step (setting p (Careful p)) before event after) {name : Nat}
include orderly moved name

theorem step_effects (effects : Effects before name) : Effects after name := by
  obtain ⟨request,_,found,effective,effected⟩ := effects
  obtain ⟨further,stands⟩ := moved.stands found
  exact ⟨request,further,stands,step_effective orderly moved name effective,effected.later (step_later orderly moved)⟩

theorem step_changed (requested : Requested name event) : SameTables before.store after.store ∨ Effects after name := by
  rcases step_tables orderly moved with ⟨same,-⟩ | ⟨other,request,program,called,stored,steps⟩
  · exact .inl same
  rcases requested with equal | equal
  · cases called.symm.trans equal
    rcases steps.effect with same | ⟨effective,effected⟩
    · exact .inl same
    exact .inr ⟨request,program,stored,effective,effected⟩
  cases called.symm.trans equal
end

structure Kept (p : Portal ω Session Policy Authority) (history : List (Taken ω Session Policy Authority))
    (current : Calls ω Session Policy Authority) : Prop where
  orderly : Orderly Sound (terms p) current
  authored : ∀ draft ∈ current.store.drafts, Author p current draft
  versioned : ∀ taken ∈ history, ∀ draft ∈ taken.after.store.drafts, Versioned taken draft
  later : ∀ taken ∈ history, Later taken.after.store current.store
  effects : ∀ name, Changed history name → Effects current name

theorem Kept.step (kept : Kept p history before) (ran : Recorded (Step (setting p (Careful p))) before taken after) : Kept p (history++[taken]) after := by
  obtain ⟨rfl,rfl,moved⟩ := ran
  refine ⟨discipline.step kept.orderly moved,step_authored kept.orderly moved kept.authored,?_,?_,?_⟩
  · intro other mem
    rcases mem_snoc.mp mem with old | rfl
    · exact kept.versioned other old
    exact step_versioned kept.orderly moved
  · intro other mem
    rcases mem_snoc.mp mem with old | rfl
    · exact (kept.later other old).next (step_later kept.orderly moved)
    exact SameTables.rfl.later
  intro name changed
  obtain ⟨other,mem,requested,different⟩ := changed
  rcases mem_snoc.mp mem with old | rfl
  · exact step_effects kept.orderly moved (kept.effects name ⟨other,old,requested,different⟩)
  exact (step_changed kept.orderly moved requested).resolve_left different

section
variable (sound : Sound final.store) (first : Effects final one) (second : Effects final other)
include sound first second

theorem effects_save (mine : final.programs one = some (⟨session,.save draftId expectedVersion input mutationKey⟩,program))
    (theirs : final.programs other = some (⟨asked,.save draftId expectedVersion wanted key⟩,further)) : one = other := by
  obtain ⟨_,_,found,-,left⟩ := first
  obtain ⟨_,_,listed,-,right⟩ := second
  cases mine.symm.trans found
  cases theirs.symm.trans listed
  obtain ⟨row,member,own,id,version⟩ := left
  obtain ⟨mutation,there,belongs,same,reached⟩ := right
  rw [←own,←belongs,sound.versions row member mutation there (id.trans same.symm) (version.trans reached.symm)]

theorem effects_submit (mine : final.programs one = some (⟨session,.submit draftId expectedVersion mutationKey⟩,program))
    (theirs : final.programs other = some (⟨asked,.submit draftId again key⟩,further)) : one = other := by
  obtain ⟨_,_,found,-,left⟩ := first
  obtain ⟨_,_,listed,-,right⟩ := second
  cases mine.symm.trans found
  cases theirs.symm.trans listed
  obtain ⟨_,mem,id,-,-,own⟩ := left
  obtain ⟨_,there,same,-,-,belongs⟩ := right
  cases sound.keyed.unique mem there (id.trans same.symm)
  exact Option.some.inj (own.symm.trans belongs)
end

theorem effects_request (sound : Sound final.store) (effects : Effects final name)
    (mine : final.programs name = some (⟨session,.submit draftId expectedVersion mutationKey⟩,program)) :
    ∃ draft ∈ final.store.drafts, ∃ row ∈ final.store.requests, Requests final.store name draftId expectedVersion draft row := by
  obtain ⟨_,_,found,-,effected⟩ := effects
  cases mine.symm.trans found
  obtain ⟨draft,mem,id,version,state,own⟩ := effected
  obtain ⟨row,there,same,copies,services⟩ := sound.submitted draft mem state
  have named : row.id = name := Option.some.inj (same.symm.trans own)
  exact ⟨draft,mem,row,there,id,version,state,own,named,copies,services⟩

theorem initial_sound (world : ω) : Sound (Db.initial world : Db ω Policy Authority) where
  keyed := List.nodup_nil
  mutations _ mem := nomatch mem
  versions _ mem := nomatch mem
  submitted _ mem := nomatch mem
  requests _ mem := nomatch mem

end

-- A save under the key its draft was created with, expecting another version, is answered with a conflict and still
-- replaces the services.

def sample : Portal Unit String Unit Unit where
  identity := id
  role _ _ := some .manager
  granted _ _ _ := true
  requestable _ _ _ := true
  currentVersion _ _ := some "v1"
  catalogItem _ publicId := some ⟨publicId,"v1","Survey",none,"survey",0,.none,"[]"⟩
  catalogItem_named _ _ _ found := by
    cases found
    rfl
  validateAnswers _ answers _ := some answers
  requestPolicy _ _ _ _ := .ok ()
  policyHolds _ _ _ := true
  assignmentConflict _ _ _ := none
  requestAuthority _ _ _ := some ()
  authorityHolds _ _ := true
  attachmentBlock _ _ := none
  unscanned _ _ := false
  squareMeters _ := 0
  acres area := area
  inputFingerprint input := input.fields.title
  draftFingerprint draft := draft.fields.title
  submitFingerprint _ _ := "submit"

def fieldsNamed (title : String) : Fields where
  projectId := none
  requestType := "inspection"
  title := title
  details := "North face"
  location := none
  preferredStartAt := none
  deliverables := none
  siteContactName := none
  siteContactEmail := none
  siteContactPhone := none
  desiredCompletionAt := none
  latitude := none
  longitude := none
  poiPoints := []

def inputNamed (title service : String) : Input := ⟨fieldsNamed title,none,[⟨service,"v1",""⟩]⟩

abbrev Samples := Calls Unit String Unit Unit

def origin : Samples := System.initial (Db.initial ())
def anyTime (_ : Nat) (_ : Request String) (_ : Db Unit Unit Unit) : Prop := True

instance (name : Nat) (request : Request String) (db : Db Unit Unit Unit) : Decidable (anyTime name request db) := .isTrue trivial

def reused : List (Event Nat (Request String)) :=
  .start 0 ⟨"manager",.create (inputNamed "Roof" "roof") "key"⟩ :: replicate 7 (.call 0)++
    .start 1 ⟨"manager",.save 0 5 (inputNamed "Fence" "fence") "key"⟩ :: replicate 10 (.call 1)

def raced : List (Event Nat (Request String)) :=
  .start 0 ⟨"manager",.create (inputNamed "Roof" "roof") "create"⟩ :: replicate 7 (.call 0)++
    .start 1 ⟨"manager",.save 0 1 (inputNamed "Fence" "fence") "first"⟩ :: replicate 7 (.call 1)++
    .start 2 ⟨"manager",.save 0 1 (inputNamed "Yard" "yard") "second"⟩ :: replicate 7 (.call 2)++
    replicate 3 (.call 1)++replicate 3 (.call 2)++
    .start 3 ⟨"manager",.submit 0 2 "submit"⟩ :: replicate 8 (.call 3)

def racedFinal : Samples := raced.foldl (System.play (setting sample (Careful sample)) id) origin

end LedgeTopOps.RequestDrafts
