import LedgeTopOps.PortalRules

namespace LedgeTopOps.PortalAuthority
open List RecursiveQueries

def sqlOr : Option Bool → Option Bool → Option Bool
  | some true, _ | _, some true => some true
  | some false, other => other
  | none, _ => none

section
variable {Principal : Type} (env : Env) (db : Db Principal)

abbrev Rows := List (Node × Nat)

def validTarget (directory : Directory) (root : Node) (rows : Rows) : Bool :=
  !rows.isEmpty && decide (rows.length ≤ 64) && rows.all (fun row => decide (row.2 < 12)) && rows.any (fun row => decide (row.1 = root)) &&
    rows.all fun row => decide (row.1.1 ≠ .project) || (directory.lifecycle row.1.2).any (Lifecycle.counts db.now db.termsReady)

def legacyRetained (directory : Directory) (target : Node) (entitlement : Entitlement) (capability : Capability) (retainedTerms : List String)
    (project : String) : Option Bool :=
  sqlOr (sqlOr ((directory.lifecycle project).bind (Lifecycle.retained db.now))
    (some (decide (capability = .directoryRead) && decide (target.1 = .project) &&
      (Scope.project? entitlement.scope).isSome && (decide (entitlement.source = .projectAlpha) || decide (entitlement.source = .legacy)))))
    (some (decide (target = (.project,project)) && retainedTerms.contains project))

-- The clause that an allow meets and a deny does not need.
def termsClause (directory : Directory) (target : Node) (rows : Rows) (capability : Capability) (retainedTerms : List String)
    (entitlement : Entitlement) : Bool :=
  decide (entitlement.effect = .deny) ||
    ((entitlement.accessTermsId.isNone || rows.any fun row => decide (row.1.1 = .project) &&
      decide (termsProject db entitlement = some row.1.2) &&
      projectAccessTermsSql db entitlement.accessTermsId entitlement.workspaceId (some row.1.2) (some true) == some true) &&
    !rows.any fun row => decide (row.1.1 = .project) && projectAccessTermsSql db entitlement.accessTermsId entitlement.workspaceId
      (some row.1.2) (legacyRetained db directory target entitlement capability retainedTerms row.1.2) == some false)

def matchingRules (directory : Directory) (workspaceId identityId : String) (capability : Capability) (retainedTerms : List String)
    (target : Node) (rows : Rows) : List Entitlement :=
  (currentRules db workspaceId identityId capability).filter fun entitlement =>
    decide ((currentRules db workspaceId identityId capability).length ≤ 200) &&
    (decide (entitlement.scope = .workspace workspaceId) || rows.any fun row => decide (Node.scope row.1 = entitlement.scope)) &&
    (!db.termsReady || termsClause db directory target rows capability retainedTerms entitlement)

def resolvePortalRelationAuthorizedTargets (workspaceId : String) (workspace : Workspace) (identityId : String) (capability : Capability)
    (targets : List Node) (retainedTerms : List String) : Option (List Node) :=
  if 200 < targets.length then none
  else if targets = [] then some []
  else
    let requested := targets.dedup
    some ((db.activeDirectory workspaceId).elim [] fun directory =>
      let lineage := unionRows (tagged directory.parents) (bases directory.roots requested) 12
      requested.filter fun target =>
        let rows := ofTarget lineage target
        let rules := matchingRules db directory workspaceId identityId capability retainedTerms target rows
        validTarget db directory (workspace.rootType.entity,workspace.rootPublicId) rows &&
          rules.all (fun entitlement => decide (entitlement.effect ≠ .deny)) && rules.any fun entitlement => decide (entitlement.effect = .allow))

-- lower() of SQLite, which is for ASCII.
def asciiLower (c : Char) : Char := if 65 ≤ c.toNat ∧ c.toNat ≤ 90 then Char.ofNat (c.toNat+32) else c
def containsText (text part : List Char) : Bool := text.tails.any fun rest => part.isPrefixOf rest

def matchesSearch (normalized : String) (entity : Entity) : Bool :=
  decide (normalized = "") || containsText (entity.displayName.toList.map asciiLower) normalized.toList

def codeUnits (text : String) : Nat := text.toList.foldl (fun units c => if c.toNat ≤ 0xFFFF then units+1 else units+2) 0

def found (workspaceId : String) (normalized : String) : List Entity :=
  (db.activeDirectory workspaceId).elim [] fun directory =>
    directory.entities.filter fun entity => entity.active && matchesSearch normalized entity

-- `normalize` is trim().toLocaleLowerCase('en-US').
def listPortalWorkspaceHierarchy (normalize : String → String) (principal : Principal) (workspaceId : String) (search : Option String) :
    Option (List Entity) :=
  if db.claimed workspaceId then none
  else
    let authority : Option (Option (String × Workspace)) :=
      if env.relations then
        (resolveGlobalIdentity env db principal).bind fun identity =>
          ((activeWorkspace db identity workspaceId).filter (activeRootExists db workspaceId)).map fun workspace => some (identity,workspace)
      else if authorizePortalWorkspaceCapability env db principal workspaceId .directoryRead (.workspace workspaceId) none then some none
      else none
    authority.bind fun relationAuthorization =>
      let normalized := (search.map normalize).getD ""
      if 100 < codeUnits normalized then none
      else
        let result := found db workspaceId normalized
        if 200 < result.length then none
        else
          let visible : Option (List Entity) := match relationAuthorization with
            | none => some result
            | some (identity,workspace) =>
              let retained := db.termRetention principal workspaceId
                ((result.filter fun entity => decide (entity.type = .project)).map Entity.publicId)
              (resolvePortalRelationAuthorizedTargets db workspaceId workspace identity .directoryRead (result.map Entity.node) retained).map
                fun authorized => result.filter fun entity => authorized.contains entity.node
          visible.filter fun entities => decide (entities.length ≤ 100)
end

section
variable {Principal : Type} {db : Db Principal} {directory : Directory}
  {rows : Rows}

def governing (workspaceId : String) (own : List Scope) (rows : Rows) : List Scope :=
  .workspace workspaceId :: (own++rows.map fun row => Node.scope row.1)

def checked (workspaceId : String) (workspace : Workspace) (own : List Scope) (rows : Rows) : List Scope :=
  addExactStandaloneClientScope (governing workspaceId own rows) workspace.rootType workspace.rootPublicId

def Workspace.root (workspace : Workspace) : Node := (workspace.rootType.entity,workspace.rootPublicId)
def Folders (own : List Scope) : Prop := ∀ scope ∈ own, ∃ publicId, scope = .folder publicId

theorem Folders.none : Folders [] := fun _ mem => nomatch mem

theorem startNode_folders (start : startNode db workspaceId workspace target = some (node,own)) : Folders own := by
  cases target with
  | workspace _ => cases start
  | folder publicId =>
    obtain ⟨_,-,same⟩ := Option.map_eq_some_iff.mp start
    cases same
    intro _ mem
    exact ⟨publicId,mem_singleton.mp mem⟩
  | entity _ _ =>
    cases start
    exact Folders.none

theorem mem_governing : scope ∈ governing workspaceId own rows ↔ scope = .workspace workspaceId ∨ scope ∈ own ∨ ∃ row ∈ rows, Node.scope row.1 = scope := by
  unfold governing
  rw [mem_cons,mem_append,mem_map]

theorem governing_checked (member : scope ∈ governing workspaceId own rows) : scope ∈ checked workspaceId workspace own rows := by
  unfold checked addExactStandaloneClientScope
  split
  · exact mem_append_left _ member
  exact member

section
variable (folders : Folders own)
include folders

theorem governing_entity : .entity type publicId ∈ governing workspaceId own rows ↔ ∃ row ∈ rows, row.1 = (type,publicId) := by
  rw [mem_governing]
  constructor
  · intro either
    rcases either with same | mem | ⟨row,mem,same⟩
    · cases same
    · obtain ⟨_,same⟩ := folders _ mem
      cases same
    obtain ⟨⟨_,_⟩,_⟩ := row
    cases same
    exact ⟨_,mem,rfl⟩
  intro there
  obtain ⟨⟨⟨_,_⟩,_⟩,mem,same⟩ := there
  cases same
  exact .inr (.inr ⟨_,mem,rfl⟩)

theorem checked_entity (other : type ≠ .client) : .entity type publicId ∈ checked workspaceId workspace own rows ↔ ∃ row ∈ rows, row.1 = (type,publicId) := by
  rw [←governing_entity folders]
  refine ⟨fun mem => ?_,governing_checked⟩
  unfold checked addExactStandaloneClientScope at mem
  split at mem
  · rcases mem_append.mp mem with old | alias_
    · exact old
    · cases mem_singleton.mp alias_
      exact absurd rfl other
  exact mem

theorem checked_project : .entity .project project ∈ checked workspaceId workspace own rows ↔
    ∃ row ∈ rows, row.1 = (.project,project) := checked_entity folders nofun

theorem checked_root :
    .entity workspace.rootType.entity workspace.rootPublicId ∈ checked workspaceId workspace own rows ↔ ∃ row ∈ rows, row.1 = workspace.root := by
  refine checked_entity folders ?_
  cases workspace.rootType with
  | _ => exact nofun
end

theorem mem_projectIds {id : String} : id ∈ projectIds nodes ↔ (EntityType.project,id) ∈ nodes := by
  unfold projectIds
  rw [mem_dedup,mem_map]
  constructor
  · intro there
    obtain ⟨⟨_,_⟩,mem,same⟩ := there
    obtain ⟨listed,project⟩ := mem_filter.mp mem
    cases same
    cases of_decide_eq_true project
    exact listed
  intro mem
  exact ⟨_,mem_filter.mpr ⟨mem,decide_eq_true rfl⟩,rfl⟩

theorem projects_counted : ((projectIds (rows.map Prod.fst)).filter fun id =>
      (directory.lifecycle id).any (Lifecycle.counts db.now structural)).length = (projectIds (rows.map Prod.fst)).length ↔
    (rows.all fun row => decide (row.1.1 ≠ .project) || (directory.lifecycle row.1.2).any (Lifecycle.counts db.now structural)) := by
  rw [length_filter_eq_length_iff,all_eq_true]
  constructor
  · intro counted row mem
    by_cases project : row.1.1 = .project
    · have there : row.1.2 ∈ projectIds (rows.map Prod.fst) := by
        refine mem_projectIds.mpr (mem_map.mpr ⟨row,mem,?_⟩)
        rw [←project]
      rw [counted _ there,Bool.or_true]
    rw [decide_eq_true project,Bool.true_or]
  intro all _ mem
  obtain ⟨row,there,same⟩ := mem_map.mp (mem_projectIds.mp mem)
  have counted := all row there
  rw [same] at counted
  simpa using counted

theorem resolve_start (structural : Bool) (active : db.activeDirectory workspaceId = some directory)
    (start : startNode db workspaceId workspace target = some (node,own)) : resolvePortalRelationTargetScopes db workspaceId workspace target structural =
      relationRows db workspaceId workspace directory own ((directory.lineage node).take 65) structural := by
  unfold resolvePortalRelationTargetScopes
  cases target with
  | workspace _ => cases start
  | folder | entity =>
    rw [start,active]
    rfl

theorem relationScopes_iff (active : db.activeDirectory workspaceId = some directory) (start : startNode db workspaceId workspace target = some (node,own)) :
    resolvePortalRelationTargetScopes db workspaceId workspace target db.termsReady = some scopes ↔
      validTarget db directory workspace.root (directory.lineage node) ∧ scopes = checked workspaceId workspace own (directory.lineage node) := by
  have folders := startNode_folders start
  have unfolded := resolve_start db.termsReady active start
  rw [unfolded]
  unfold relationRows
  by_cases many : 64 < (directory.lineage node).length
  · have cut : 64 < ((directory.lineage node).take 65).length := by
      rw [length_take]
      omega
    rw [if_pos (by rw [decide_eq_true cut,Bool.or_true,Bool.true_or])]
    refine ⟨nofun,fun holds => ?_⟩
    have valid := holds.1
    unfold validTarget at valid
    simp only [Bool.and_eq_true,decide_eq_true_eq] at valid
    omega
  have whole : (directory.lineage node).take 65 = directory.lineage node :=
    take_of_length_le (by omega)
  rw [whole]
  generalize directory.lineage node = rows at many
  have few : rows.length ≤ 64 := by omega
  unfold validTarget
  rw [decide_eq_true few,decide_eq_false many,Bool.or_false,Bool.and_true]
  have deep : rows.all (fun row => decide (row.2 < 12)) = !rows.any fun row => decide (12 ≤ row.2) := by
    rw [all_eq_not_any_not]
    congr 2
    funext row
    rw [←decide_not]
    exact decide_eq_decide.mpr (by omega)
  have reaches : rows.any (fun row => decide (row.1 = workspace.root)) ↔
      .entity workspace.rootType.entity workspace.rootPublicId ∈ checked workspaceId workspace own rows := by
    rw [checked_root folders,any_eq_true]
    simp only [decide_eq_true_eq]
  rw [deep]
  by_cases idle : (rows.isEmpty || rows.any fun row => decide (12 ≤ row.2))
  · rw [if_pos idle]
    refine ⟨nofun,fun holds => ?_⟩
    have valid := holds.1
    simp only [Bool.and_eq_true] at valid
    rcases Bool.or_eq_true_iff.mp idle with none_ | over_
    · rw [none_] at valid
      cases valid.1.1.1
    rw [over_] at valid
    cases valid.1.1.2
  have first : rows.isEmpty = false := by
    cases held : rows.isEmpty with
    | false => rfl
    | true => exact absurd (by rw [held,Bool.true_or]) idle
  have second : (rows.any fun row => decide (12 ≤ row.2)) = false := by
    cases held : rows.any fun row => decide (12 ≤ row.2) with
    | false => rfl
    | true => exact absurd (by rw [held,Bool.or_true]) idle
  rw [first,second,Bool.not_false,Bool.true_and,Bool.true_and,Bool.and_eq_true]
  by_cases counted : (rows.all fun row => decide (row.1.1 ≠ .project) || (directory.lifecycle row.1.2).any (Lifecycle.counts db.now db.termsReady))
  · rw [if_neg (not_not.mpr (projects_counted.mpr counted))]
    by_cases there : .entity workspace.rootType.entity workspace.rootPublicId ∈ checked workspaceId workspace own rows
    · have present : (checked workspaceId workspace own rows).contains (.entity workspace.rootType.entity workspace.rootPublicId) :=
        contains_iff_mem.mpr there
      show (if (checked workspaceId workspace own rows).contains _ = true then some (checked workspaceId workspace own rows) else none) = some scopes ↔ _
      rw [if_pos present]
      exact ⟨fun same => ⟨⟨reaches.mpr there,counted⟩,(Option.some.inj same).symm⟩,fun holds => by rw [holds.2]⟩
    have absent : ¬(checked workspaceId workspace own rows).contains (.entity workspace.rootType.entity workspace.rootPublicId) :=
      fun held => there (contains_iff_mem.mp held)
    show (if (checked workspaceId workspace own rows).contains _ = true then some (checked workspaceId workspace own rows) else none) = some scopes ↔ _
    rw [if_neg absent]
    exact ⟨nofun,fun holds => absurd (reaches.mp holds.1.1) there⟩
  rw [if_pos fun same => counted (projects_counted.mp same)]
  exact ⟨nofun,fun holds => absurd holds.1.2 counted⟩
end

variable {Principal : Type} {db : Db Principal} {workspaceId identityId : String} {directory : Directory} {node : Node}
  {rows : Rows} {capability : Capability} {retainedTerms : List String}

theorem validTarget_perm (order : rows.Perm others) : validTarget db directory node rows = validTarget db directory node others := by
  unfold validTarget
  rw [order.length_eq,order.isEmpty_eq,order.all_eq,order.any_eq,order.all_eq]

theorem matchingRules_perm (order : rows.Perm others) : matchingRules db directory workspaceId identityId capability retainedTerms node rows =
      matchingRules db directory workspaceId identityId capability retainedTerms node others := by
  refine filter_congr fun entitlement _ => ?_
  unfold termsClause
  rw [order.any_eq,order.any_eq,order.any_eq]

def Listed (db : Db Principal) (directory : Directory) (workspaceId identityId : String) (root : Node) (capability : Capability)
    (retainedTerms : List String) (node : Node) : Prop :=
  validTarget db directory root (directory.lineage node) = true ∧
    (∀ entitlement ∈ matchingRules db directory workspaceId identityId capability retainedTerms node (directory.lineage node), entitlement.effect ≠ .deny) ∧
    ∃ entitlement ∈ matchingRules db directory workspaceId identityId capability retainedTerms node (directory.lineage node),
      entitlement.effect = .allow

theorem authorized_iff (active : db.activeDirectory workspaceId = some directory)
    (done : resolvePortalRelationAuthorizedTargets db workspaceId workspace identityId capability targets retainedTerms = some authorized)
    (requested : node ∈ targets) : node ∈ authorized ↔ Listed db directory workspaceId identityId workspace.root capability retainedTerms node := by
  unfold resolvePortalRelationAuthorizedTargets at done
  split at done
  · cases done
  split at done
  · rename_i empty
    rw [empty] at requested
    cases requested
  rw [active] at done
  cases done
  have listed : node ∈ targets.dedup := mem_dedup.mpr requested
  have order : (ofTarget (unionRows (tagged directory.parents) (bases directory.roots targets.dedup) 12) node).Perm (directory.lineage node) :=
    ofTarget_perm listed
  rw [Option.elim_some,mem_filter]
  dsimp only
  rw [validTarget_perm order,matchingRules_perm order]
  simp only [listed,true_and,Bool.and_eq_true,all_eq_true,any_eq_true,decide_eq_true_eq]
  exact and_assoc
end LedgeTopOps.PortalAuthority
