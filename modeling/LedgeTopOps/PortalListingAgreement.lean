import LedgeTopOps.PortalListing

namespace LedgeTopOps.PortalAuthority
open Option hiding any_eq_false any_eq_true
open List
open Bool (and_eq_true not_eq_true' and_eq_true_iff)

section
variable {Principal : Type} {db : Db Principal} {env : Env} {workspaceId : String}
  {entitlement : Entitlement}

def Grants (env : Env) (db : Db Principal) (workspaceId : String) (scopes : List Scope) (node : Node) (entitlement : Entitlement) : Prop :=
  projectAccessRowAllows (readRule db entitlement) scopes
    (if db.termsReady then readExpiredScopeProjects env db workspaceId scopes else []) false
    (historyOf .directoryRead (.entity node.1 node.2)) = true

def Alone (db : Db Principal) (rows : Rows) (entitlement : Entitlement) : Prop :=
  (readRule db entitlement).accessTermsId = none ∨ ∀ row ∈ rows, row.1.1 = .project → (readRule db entitlement).termsProjectId = some row.1.2

theorem terms_some {id : String} :
    projectAccessTermsSql db (some id) workspaceId project one = some true → (db.terms id).map Terms.projectPublicId = project := by
  intro live
  obtain ⟨_,found,holds⟩ := (Option.any_eq_true _ _).mp (some.inj live)
  simp only [and_eq_true,decide_eq_true_eq] at holds
  rw [found,map_some,holds.1.2]

theorem terms_decided {id : String} :
    projectAccessTermsSql db (some id) workspaceId project one = projectAccessTermsSql db (some id) workspaceId project other := rfl

def Shows (db : Db Principal) (directory : Directory) (node : Node) (rows : Rows) (entitlement : Entitlement) : Prop :=
  (!db.termsReady || termsClause db directory node rows .directoryRead [] entitlement) = true

theorem shows_alone (allow : entitlement.effect = .allow) (shows : Shows db directory node rows entitlement) : Alone db rows entitlement := by
  unfold Alone readRule
  cases ready : db.termsReady with
  | false => exact .inl rfl
  | true =>
    unfold Shows termsClause at shows
    rw [ready,allow] at shows
    simp only [Bool.not_true,Bool.false_or,and_eq_true,not_eq_true',reduceCtorEq,decide_false] at shows
    cases terms : entitlement.accessTermsId with
    | none => exact .inl rfl
    | some id =>
      refine .inr fun row mem project => ?_
      have held := any_eq_false.mp shows.2 row mem
      rw [decide_eq_true project,Bool.true_and,terms] at held
      have live : projectAccessTermsSql db (some id) entitlement.workspaceId (some row.1.2) (some true) = some true := by
        cases decided : projectAccessTermsSql db (some id) entitlement.workspaceId (some row.1.2) (some true) with
        | none => cases decided
        | some value => cases value with
          | true => rfl
          | false => exact absurd (by rw [terms_decided,decided]; rfl) held
      unfold termsProject
      rw [terms,bind_some]
      exact terms_some live

def Dated (db : Db Principal) (directory : Directory) (rows : Rows) : Prop :=
  ∀ row ∈ rows, row.1.1 = .project → (directory.lifecycle row.1.2).bind (Lifecycle.retained db.now) ≠ none

theorem sqlOr_true : sqlOr left (some true) = some true := by
  cases left with
  | none => rfl
  | some value => cases value <;> rfl

theorem sqlOr_false : sqlOr left (some false) = left := by
  cases left with
  | none => rfl
  | some value => cases value <;> rfl

-- The exception for a project's own history is the same in both readings.
def history (node : Node) (entitlement : Entitlement) : Bool :=
  decide (node.1 = .project) && (Scope.project? entitlement.scope).isSome &&
    (decide (entitlement.source = .projectAlpha) || decide (entitlement.source = .legacy))

theorem legacyRetained_eq (project : String) : legacyRetained db directory node entitlement .directoryRead [] project =
    if history node entitlement then some true else (directory.lifecycle project).bind (Lifecycle.retained db.now) := by
  unfold legacyRetained
  rw [contains_nil,Bool.and_false,sqlOr_false,decide_eq_true rfl,Bool.true_and]
  show sqlOr _ (some (history node entitlement)) = _
  cases history node entitlement with
  | true => exact sqlOr_true
  | false => exact sqlOr_false

theorem readRule_history (ready : db.termsReady) :
    (historyOf .directoryRead (.entity node.1 node.2) && (readRule db entitlement).ordinaryHistory) = history node entitlement := by
  unfold historyOf readRule Rule.ordinaryHistory history
  rw [if_pos ready]
  have project : (Scope.entity node.1 node.2).project?.isSome = decide (node.1 = .project) := by
    obtain ⟨type,_⟩ := node
    cases type <;> rfl
  rw [project]
  simp [Bool.and_assoc]

theorem shows_ready (ready : db.termsReady) (allow : entitlement.effect = .allow) : Shows db directory node rows entitlement ↔
    (entitlement.accessTermsId = none ∨ ∃ row ∈ rows, row.1.1 = .project ∧ termsProject db entitlement = some row.1.2 ∧
      projectAccessTermsSql db entitlement.accessTermsId entitlement.workspaceId (some row.1.2) (some true) = some true) ∧
    ∀ row ∈ rows, row.1.1 = .project → projectAccessTermsSql db entitlement.accessTermsId entitlement.workspaceId (some row.1.2)
      (legacyRetained db directory node entitlement .directoryRead [] row.1.2) ≠ some false := by
  unfold Shows termsClause
  rw [ready,allow]
  simp only [Bool.not_true,Bool.false_or,and_eq_true,not_eq_true',reduceCtorEq,decide_false,Bool.or_eq_true,
    isNone_iff_eq_none,any_eq_true,decide_eq_true_eq,beq_iff_eq,any_eq_false,and_assoc,not_and]

section
variable (relations : env.relations) (active : db.activeDirectory workspaceId = some directory) (allow : entitlement.effect = .allow)
include relations active allow

theorem grants_shows (alone : Alone db rows entitlement)
    (grants : Grants env db workspaceId (checked workspaceId workspace [] rows) node entitlement) : Shows db directory node rows entitlement := by
  cases ready : db.termsReady with
  | false =>
    unfold Shows
    rw [ready]
    rfl
  | true =>
    rw [shows_ready ready allow]
    unfold Grants projectAccessRowAllows at grants
    rw [if_pos ready,readRule_history ready] at grants
    have terms : (readRule db entitlement).accessTermsId = entitlement.accessTermsId := by
      unfold readRule
      rw [if_pos ready]
    have project : (readRule db entitlement).termsProjectId = termsProject db entitlement := by
      unfold readRule
      rw [if_pos ready]
    have live : (readRule db entitlement).termsLive = termsLive db entitlement := by
      unfold readRule
      rw [if_pos ready]
    unfold Alone at alone
    rw [terms,project] at alone
    rw [terms] at grants
    cases bound : entitlement.accessTermsId with
    | none =>
      rw [bound] at grants
      refine ⟨.inl rfl,fun row mem own => ?_⟩
      rw [legacyRetained_eq]
      rcases Bool.or_eq_true_iff.mp grants with none_ | kept
      · split
        · exact nofun
        · have empty := List.isEmpty_iff.mp none_
          have absent : row.1.2 ∉ readExpiredScopeProjects env db workspaceId (checked workspaceId workspace [] rows) := by
            rw [empty]
            exact not_mem_nil
          rw [expired_iff relations active] at absent
          have there : .entity .project row.1.2 ∈ checked workspaceId workspace [] rows := by
            refine (checked_project Folders.none).mpr ⟨row,mem,?_⟩
            rw [←own]
          have held := not_not.mp fun different => absent ⟨there,different⟩
          rw [held]
          exact nofun
      rw [if_pos kept]
      exact nofun
    | some id =>
      rw [bound] at grants alone
      obtain ⟨holds,within⟩ := and_eq_true_iff.mp grants
      rw [live] at holds
      rw [project] at within
      obtain ⟨own,found,inside⟩ := (Option.any_eq_true _ _).mp within
      obtain ⟨there,-⟩ := and_eq_true_iff.mp inside
      rw [Bool.false_or] at there
      obtain ⟨row,mem,same⟩ := (checked_project Folders.none).mp (contains_iff_mem.mp there)
      have sure : projectAccessTermsSql db (some id) entitlement.workspaceId (some own) (some true) = some true := by
        unfold termsLive at holds
        rw [bound,found] at holds
        exact beq_iff_eq.mp holds
      refine ⟨.inr ⟨row,mem,by rw [same],by rw [same]; exact found,by rw [same]; exact sure⟩,?_⟩
      intro other listed kind
      have equal := (alone.resolve_left nofun) other listed kind
      rw [found] at equal
      cases equal
      rw [terms_decided,sure]
      exact nofun

theorem shows_grants (dated : Dated db directory rows) (shows : Shows db directory node rows entitlement) :
    Grants env db workspaceId (checked workspaceId workspace [] rows) node entitlement := by
  have alone := shows_alone allow shows
  have ancestor : ∀ id ∈ readExpiredScopeProjects env db workspaceId (checked workspaceId workspace [] rows),
      (∃ row ∈ rows, row.1 = (.project,id)) ∧ (directory.lifecycle id).bind (Lifecycle.retained db.now) ≠ some true := by
    intro _ mem
    have held := (expired_iff relations active).mp mem
    exact ⟨(checked_project Folders.none).mp held.1,held.2⟩
  unfold Grants projectAccessRowAllows
  cases ready : db.termsReady with
  | false =>
    unfold readRule
    rw [ready]
    rfl
  | true =>
    rw [if_pos rfl,readRule_history ready]
    rw [shows_ready ready allow] at shows
    unfold Alone readRule at alone
    unfold readRule
    rw [if_pos ready] at alone ⊢
    cases bound : entitlement.accessTermsId with
    | none =>
      rw [bound] at shows
      refine Bool.or_eq_true_iff.mpr ?_
      by_cases kept : history node entitlement
      · exact .inr kept
      refine .inl (List.isEmpty_iff.mpr (eq_nil_iff_forall_not_mem.mpr fun id mem => ?_))
      obtain ⟨⟨⟨⟨_,_⟩,_⟩,there,same⟩,past⟩ := ancestor id mem
      cases same
      have held : legacyRetained db directory node entitlement .directoryRead [] id ≠ some false := shows.2 _ there rfl
      rw [legacyRetained_eq,if_neg kept] at held
      have known : (directory.lifecycle id).bind (Lifecycle.retained db.now) ≠ none := dated _ there rfl
      cases value : (directory.lifecycle id).bind (Lifecycle.retained db.now) with
      | none => exact known value
      | some decided => cases decided with
        | true => exact past value
        | false => exact held value
    | some =>
      rw [bound] at shows alone
      obtain ⟨⟨⟨_,_⟩,_⟩,there,own,project,live⟩ := shows.1.resolve_left nofun
      cases own
      refine and_eq_true_iff.mpr ⟨?_,?_⟩
      · show termsLive db entitlement = true
        unfold termsLive
        rw [bound,project,live]
        rfl
      rw [project,any_some,Bool.false_or]
      refine and_eq_true_iff.mpr ⟨contains_iff_mem.mpr ((checked_project Folders.none).mpr ⟨_,there,rfl⟩),?_⟩
      refine all_eq_true.mpr fun other mem => decide_eq_true ?_
      obtain ⟨⟨⟨⟨_,_⟩,_⟩,listed,same⟩,-⟩ := ancestor other mem
      cases same
      have equal : termsProject db entitlement = some other := (alone.resolve_left nofun) _ listed rfl
      rw [project] at equal
      exact (some.inj equal).symm
end
end

section
variable {Principal : Type} (env : Env) (db : Db Principal) (workspaceId identityId : String) (workspace : Workspace)
  (directory : Directory) (node : Node)

def rulesOf : List Entitlement := currentRules db workspaceId identityId .directoryRead

def ShownByRules (rows : Rows) : Prop := (rulesOf db workspaceId identityId).length ≤ 200 ∧
  ¬Denies db workspaceId identityId .directoryRead (governing workspaceId [] rows) ∧
  ∃ entitlement ∈ rulesOf db workspaceId identityId, entitlement.scope ∈ governing workspaceId [] rows ∧ entitlement.effect = .allow ∧
    Shows db directory node rows entitlement

def Granted (rows : Rows) : Prop := (rulesOf db workspaceId identityId).length ≤ 200 ∧
  identityDeniedForScopes env db identityId workspaceId (checked workspaceId workspace [] rows) = false ∧
  ¬Denies db workspaceId identityId .directoryRead (checked workspaceId workspace [] rows) ∧
  ∃ entitlement ∈ rulesOf db workspaceId identityId, entitlement.scope ∈ checked workspaceId workspace [] rows ∧
    Grants env db workspaceId (checked workspaceId workspace [] rows) node entitlement

structure Clear (rows : Rows) : Prop where
  denials : ShownByRules db workspaceId identityId directory node rows →
    identityDeniedForScopes env db identityId workspaceId (checked workspaceId workspace [] rows) = false
  aliased : ShownByRules db workspaceId identityId directory node rows → ∀ entitlement ∈ rulesOf db workspaceId identityId,
    workspace.rootType = .standaloneClient → entitlement.scope = .entity .client workspace.rootPublicId → entitlement.effect ≠ .deny
  calendar : ShownByRules db workspaceId identityId directory node rows → Dated db directory rows ∨
    ∃ entitlement ∈ rulesOf db workspaceId identityId, entitlement.scope ∈ checked workspaceId workspace [] rows ∧
      Grants env db workspaceId (checked workspaceId workspace [] rows) node entitlement
  ancestry : Granted env db workspaceId identityId workspace node rows →
    (∃ entitlement ∈ rulesOf db workspaceId identityId, entitlement.scope ∈ governing workspaceId [] rows ∧ Alone db rows entitlement ∧
      Grants env db workspaceId (checked workspaceId workspace [] rows) node entitlement) ∨
    (¬Dated db directory rows ∧ ShownByRules db workspaceId identityId directory node rows)
end

section
variable {Principal : Type} {db : Db Principal} {workspaceId identityId : String} {workspace : Workspace}

theorem reaches_root (valid : validTarget db directory workspace.root rows) : ∃ row ∈ rows, row.1 = workspace.root := by
  unfold validTarget at valid
  simp only [and_eq_true,any_eq_true,decide_eq_true_eq] at valid
  exact valid.1.2

theorem mem_checked (reached : ∃ row ∈ rows, row.1 = workspace.root) : scope ∈ checked workspaceId workspace [] rows ↔
    scope ∈ governing workspaceId [] rows ∨ (workspace.rootType = .standaloneClient ∧ scope = .entity .client workspace.rootPublicId) := by
  have listed : (governing workspaceId [] rows).contains (.entity workspace.rootType.entity workspace.rootPublicId) :=
    contains_iff_mem.mpr ((governing_entity Folders.none).mpr reached)
  unfold checked addExactStandaloneClientScope
  cases root : workspace.rootType with
  | organization =>
    rw [if_neg fun both => nomatch both.1]
    simp
  | standaloneClient =>
    rw [root] at listed
    rw [if_pos ⟨rfl,listed⟩]
    simp

theorem denies_checked (reached : ∃ row ∈ rows, row.1 = workspace.root) :
    Denies db workspaceId identityId .directoryRead (checked workspaceId workspace [] rows) ↔
      Denies db workspaceId identityId .directoryRead (governing workspaceId [] rows) ∨
      ∃ entitlement ∈ rulesOf db workspaceId identityId, workspace.rootType = .standaloneClient ∧
        entitlement.scope = .entity .client workspace.rootPublicId ∧ entitlement.effect = .deny := by
  constructor
  · intro denies
    obtain ⟨entitlement,mem,inside,deny⟩ := denies
    rcases (mem_checked reached).mp inside with old | ⟨root,same⟩
    · exact .inl ⟨entitlement,mem,old,deny⟩
    exact .inr ⟨entitlement,mem,root,same,deny⟩
  intro either
  rcases either with ⟨entitlement,mem,inside,deny⟩ | ⟨entitlement,mem,root,same,deny⟩
  · exact ⟨entitlement,mem,governing_checked inside,deny⟩
  exact ⟨entitlement,mem,(mem_checked reached).mpr (.inr ⟨root,same⟩),deny⟩

theorem listed_iff : Listed db directory workspaceId identityId workspace.root .directoryRead [] node ↔
    validTarget db directory workspace.root (directory.lineage node) ∧ ShownByRules db workspaceId identityId directory node (directory.lineage node) := by
  have matching : ∀ entitlement, entitlement ∈ matchingRules db directory workspaceId identityId .directoryRead [] node (directory.lineage node) ↔
      entitlement ∈ rulesOf db workspaceId identityId ∧ (rulesOf db workspaceId identityId).length ≤ 200 ∧
        entitlement.scope ∈ governing workspaceId [] (directory.lineage node) ∧ Shows db directory node (directory.lineage node) entitlement := by
    intro _
    unfold matchingRules rulesOf Shows
    rw [mem_filter,mem_governing]
    simp only [and_eq_true,decide_eq_true_eq,Bool.or_eq_true,any_eq_true,and_assoc,not_mem_nil,false_or]
  refine and_congr_right fun _ => ?_
  constructor
  · intro holds
    obtain ⟨entitlement,mem,allow⟩ := holds.2
    obtain ⟨there,few,inside,shows⟩ := (matching entitlement).mp mem
    refine ⟨few,?_,entitlement,there,inside,allow,shows⟩
    intro denies
    obtain ⟨other,listed,within,deny⟩ := denies
    refine holds.1 other ((matching other).mpr ⟨listed,few,within,?_⟩) deny
    unfold Shows termsClause
    rw [deny,decide_eq_true rfl,Bool.true_or,Bool.or_true]
  intro holds
  obtain ⟨few,undenied,entitlement,mem,inside,allow,shows⟩ := holds
  refine ⟨fun other listed deny => ?_,entitlement,(matching entitlement).mpr ⟨mem,few,inside,shows⟩,allow⟩
  obtain ⟨there,-,within,-⟩ := (matching other).mp listed
  exact undenied ⟨other,there,within,deny⟩

theorem authorize_iff (node : Node) (v2 : env.hierarchyV2) (relations : env.relations)
    (free : db.claimed workspaceId = false) (identity : resolveGlobalIdentity env db principal = some identityId)
    (mem : activeWorkspace db identityId workspaceId = some workspace) (root : activeRootExists db workspaceId workspace)
    (active : db.activeDirectory workspaceId = some directory) :
    authorizePortalWorkspaceCapability env db principal workspaceId .directoryRead (.entity node.1 node.2) none ↔
      validTarget db directory workspace.root (directory.lineage node) ∧ Granted env db workspaceId identityId workspace node (directory.lineage node) := by
  unfold authorizePortalWorkspaceCapability targetScopes
  rw [v2,free,identity,any_some,mem,any_some,root,if_pos relations]
  simp only [Bool.not_false,Bool.true_and,Option.any_eq_true,relationScopes_iff active (rfl : startNode db workspaceId workspace (.entity node.1 node.2) = some (node,[]))]
  have all : ∀ ids : List String, ids.filter (fun id => decide (some id ≠ none)) = ids :=
    fun ids => filter_eq_self.mpr fun id _ => decide_eq_true nofun
  have shell : shellOf .directoryRead (.entity node.1 node.2) = false := rfl
  constructor
  · intro found
    obtain ⟨_,⟨valid,rfl⟩,holds⟩ := found
    rw [all,shell,and_eq_true,not_eq_true',allowedRules_iff] at holds
    exact ⟨valid,holds.2.1,holds.1,holds.2.2⟩
  intro found
  obtain ⟨valid,few,undenied,rest⟩ := found
  refine ⟨_,⟨valid,rfl⟩,?_⟩
  rw [all,shell,and_eq_true,not_eq_true',allowedRules_iff]
  exact ⟨undenied,few,rest⟩

theorem agrees_iff (relations : env.relations) (active : db.activeDirectory workspaceId = some directory) (reached : ∃ row ∈ rows, row.1 = workspace.root) :
    (ShownByRules db workspaceId identityId directory node rows ↔ Granted env db workspaceId identityId workspace node rows) ↔
      Clear env db workspaceId identityId workspace directory node rows := by
  constructor
  · intro same
    refine ⟨fun shown => (same.mp shown).2.1,?_,fun shown => .inr (same.mp shown).2.2.2,?_⟩
    · intro shown entitlement mem root alias_ deny
      exact (same.mp shown).2.2.1 ((denies_checked reached).mpr (.inr ⟨entitlement,mem,root,alias_,deny⟩))
    intro granted
    have shown := same.mpr granted
    by_cases dated : Dated db directory rows
    · obtain ⟨-,-,entitlement,mem,inside,allow,shows⟩ := shown
      exact .inl ⟨entitlement,mem,inside,shows_alone allow shows,shows_grants relations active allow dated shows⟩
    exact .inr ⟨dated,shown⟩
  intro clear
  constructor
  · intro shown
    obtain ⟨few,undenied,entitlement,mem,inside,allow,shows⟩ := id shown
    refine ⟨few,clear.denials shown,?_,?_⟩
    · intro denies
      rcases (denies_checked reached).mp denies with old | ⟨other,listed,root,alias_,deny⟩
      · exact undenied old
      exact clear.aliased shown other listed root alias_ deny
    rcases clear.calendar shown with dated | granted
    · exact ⟨entitlement,mem,governing_checked inside,shows_grants relations active allow dated shows⟩
    exact granted
  intro granted
  rcases clear.ancestry granted with ⟨entitlement,mem,inside,alone,grants⟩ | ⟨-,shown⟩
  · obtain ⟨few,-,undenied,-⟩ := granted
    have free : ¬Denies db workspaceId identityId .directoryRead (governing workspaceId [] rows) :=
      fun denies => undenied ((denies_checked reached).mpr (.inl denies))
    have allow : entitlement.effect = .allow := by
      cases effect : entitlement.effect with
      | allow => rfl
      | deny => exact absurd ⟨entitlement,mem,inside,effect⟩ free
    exact ⟨few,free,entitlement,mem,inside,allow,grants_shows relations active allow alone grants⟩
  exact shown
end

section
variable {Principal : Type} (env : Env) (db : Db Principal) (normalize : String → String) (principal : Principal) (workspaceId : String)
  (search : Option String)

def matched : List Entity := found db workspaceId ((search.map normalize).getD "")

def ListingAgrees : Prop := ∀ visible, listPortalWorkspaceHierarchy env db normalize principal workspaceId search = some visible →
  ∀ entity ∈ matched db normalize workspaceId search, entity ∈ visible ↔
    authorizePortalWorkspaceCapability env db principal workspaceId .directoryRead (.entity entity.type entity.publicId) none = true

-- Every matching entity in good standing is clear of what the two treat differently.
def AllClear : Prop := ∀ visible identityId workspace directory,
  listPortalWorkspaceHierarchy env db normalize principal workspaceId search = some visible →
  resolveGlobalIdentity env db principal = some identityId → activeWorkspace db identityId workspaceId = some workspace →
  db.activeDirectory workspaceId = some directory → ∀ entity ∈ matched db normalize workspaceId search,
    validTarget db directory workspace.root (directory.lineage entity.node) = true →
      Clear env db workspaceId identityId workspace directory entity.node (directory.lineage entity.node)

variable {env db normalize principal workspaceId search}

theorem list_some (relations : env.relations) (done : listPortalWorkspaceHierarchy env db normalize principal workspaceId search = some visible) :
    db.claimed workspaceId = false ∧ ∃ identityId workspace authorized retained, resolveGlobalIdentity env db principal = some identityId ∧
      activeWorkspace db identityId workspaceId = some workspace ∧ activeRootExists db workspaceId workspace ∧ retained = db.termRetention principal workspaceId
        (((matched db normalize workspaceId search).filter fun entity => decide (entity.type = .project)).map Entity.publicId) ∧
      resolvePortalRelationAuthorizedTargets db workspaceId workspace identityId .directoryRead
        ((matched db normalize workspaceId search).map Entity.node) retained = some authorized ∧
      visible = (matched db normalize workspaceId search).filter fun entity => authorized.contains entity.node := by
  unfold listPortalWorkspaceHierarchy at done
  split at done
  · cases done
  rename_i free
  refine ⟨Bool.eq_false_iff.mpr free,?_⟩
  dsimp only at done
  obtain ⟨_,given,rest⟩ := bind_eq_some_iff.mp done
  obtain ⟨identityId,identity,mem⟩ := bind_eq_some_iff.mp given
  obtain ⟨workspace,kept,rfl⟩ := map_eq_some_iff.mp mem
  obtain ⟨own,root⟩ := filter_eq_some_iff.mp kept
  split at rest
  · cases rest
  split at rest
  · cases rest
  obtain ⟨listed,-⟩ := filter_eq_some_iff.mp rest
  obtain ⟨authorized,resolved,rfl⟩ := map_eq_some_iff.mp listed
  exact ⟨identityId,workspace,authorized,_,identity,own,root,rfl,resolved,rfl⟩

theorem listed_entity (mem : entity ∈ matched db normalize workspaceId search) {authorized : List Node} :
    entity ∈ (matched db normalize workspaceId search).filter (fun entity => authorized.contains entity.node) ↔ entity.node ∈ authorized := by
  rw [mem_filter,contains_iff_mem]
  exact and_iff_right mem

end

def organization : Node := (.organization,"org")
def project : Node := (.project,"site")
def row (node : Node) (name : String) : Entity := ⟨node.1,node.2,none,name,"1",true⟩

def sampleDirectory : Directory where
  entities := [row organization "Org",row project "Site"]
  keyed := by
    show ([row organization "Org",row project "Site"].map Entity.node).Nodup
    decide
  relations := [⟨organization,project,true⟩]
  lifecycle id := if id = "site" then some .active else none
  schemaVersion := some 3

def always : Validity := ⟨.active,false,some 0,none⟩

def sampleRule (id : String) (scope : Scope) : Entitlement where
  id := id
  workspaceId := "w"
  identityId := "reader"
  capability := .directoryRead
  effect := .allow
  scope := scope
  source := .projectAlpha
  sourceVersion := none
  validity := always
  accessTermsId := none

def sampleDb (denials : List Denial) : Db Unit where
  now := 100
  termsReady := true
  claimed _ := false
  resolved _ := some "reader"
  rootAccessAllowed _ := true
  primaryWorkspaceAccount _ := true
  primaryLegacyWorkspaceMembership _ _ := true
  termRetention _ _ _ := []
  ownsSource _ _ := true
  currentlyActive _ _ _ := true
  workspaces id := if id = "w" then some ⟨"w",.organization,"org","Org",none,"pa",true⟩ else none
  memberships := [⟨"w","reader",.projectAlpha,none,.active,false,none⟩]
  checkpoints id := if id = "w" then some ⟨"g",1⟩ else none
  generations _ _ := some ⟨1,true⟩
  directories _ _ := sampleDirectory
  bindings := []
  entitlements := [sampleRule "e" (.workspace "w")]
  denials := denials
  terms _ := none
  deadlines _ := none

def siteDenied : Db Unit := sampleDb [⟨"reader",.within "w" (.entity .project "site"),always⟩]
def everyFlag : Env := ⟨true,true,true⟩
def listSite (db : Db Unit) : Option (List Entity) := listPortalWorkspaceHierarchy everyFlag db id () "w" none
def checkSite (db : Db Unit) : Bool := authorizePortalWorkspaceCapability everyFlag db () "w" .directoryRead (.entity .project "site") none

end LedgeTopOps.PortalAuthority
