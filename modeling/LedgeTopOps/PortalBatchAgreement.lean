import LedgeTopOps.PortalBatching
import LedgeTopOps.PortalListingAgreement
import Mathlib.Algebra.Order.BigOperators.Group.List
import Mathlib.Algebra.Order.Group.Nat

namespace LedgeTopOps.PortalAuthority
open List KeyedRows RecursiveQueries
open Bool (and_eq_true eq_false_iff and_eq_true_iff)
open Option (any_none any_some bind_eq_some_iff bind_some elim_some filter_some map_eq_some_iff)

def reading (group : Group) : Rows := group.map fun row => (row.1.node,row.2)

section
variable {Principal : Type} {db : Db Principal} {workspaceId : String} {workspace : Workspace} {directory : Directory} {target : Scope}
  {entity : Entity}

theorem mem_legacyRoots : entity ∈ directory.legacyRoots node ↔ entity ∈ directory.entities ∧ entity.active ∧ entity.node = node := by
  unfold Directory.legacyRoots
  rw [mem_filter,and_eq_true,decide_eq_true_eq]

theorem legacyRoots_short : (directory.legacyRoots node).length ≤ 1 := by
  match roots : directory.legacyRoots node with
  | [] => exact Nat.zero_le 1
  | [_] => exact le_rfl
  | first :: second :: rest =>
    have one := mem_legacyRoots.mp (roots ▸ mem_cons_self : first ∈ directory.legacyRoots node)
    have other := mem_legacyRoots.mp (roots ▸ mem_cons_of_mem _ mem_cons_self : second ∈ directory.legacyRoots node)
    have same := directory.keyed.unique one.1 other.1 (one.2.2.trans other.2.2.symm)
    have distinct : (directory.legacyRoots node).Nodup := (Nodup.of_map _ directory.keyed).filter _
    rw [roots,same] at distinct
    exact absurd mem_cons_self (nodup_cons.mp distinct).1

theorem nativeRoots_none (start : startNode db workspaceId workspace target = none) : nativeRoots db directory workspaceId workspace target = [] := by
  cases target with
  | workspace => rfl
  | folder =>
    unfold nativeRoots
    dsimp only
    rw [Option.map_eq_none_iff.mp start]
    rfl
  | entity => cases start

section
variable (start : startNode db workspaceId workspace target = some (node,own))
include start

theorem nativeRoots_fresh (fresh : Fresh db workspaceId directory target node) :
    nativeRoots db directory workspaceId workspace target = directory.legacyRoots node := by
  cases target with
  | workspace => cases start
  | folder bindingId =>
    obtain ⟨binding,found,same⟩ := map_eq_some_iff.mp start
    obtain ⟨rfl,-⟩ := Prod.mk.inj same
    unfold nativeRoots
    dsimp only
    rw [found,elim_some]
    refine filter_congr fun entity mem => ?_
    by_cases root : (entity.active && decide (entity.node = (folderOwnerEntityType binding.ownerType binding.ownerPublicId
      workspace.rootType workspace.rootPublicId,binding.ownerPublicId))) = true
    · rw [root,Bool.true_and]
      exact decide_eq_true (fresh bindingId binding rfl found entity (mem_filter.mpr ⟨mem,root⟩))
    rw [eq_false_iff.mpr root,Bool.false_and]
  | entity =>
    cases start
    rfl

theorem nativeRoots_stale (stale : ¬Fresh db workspaceId directory target node) : nativeRoots db directory workspaceId workspace target = [] := by
  unfold Fresh at stale
  push Not at stale
  obtain ⟨_,_,rfl,found,_,root,other⟩ := stale
  unfold startNode at start
  dsimp only at start
  rw [found,Option.map_some] at start
  obtain ⟨rfl,-⟩ := Prod.mk.inj (Option.some.inj start)
  unfold nativeRoots
  dsimp only
  rw [found,elim_some]
  refine filter_eq_nil_iff.mpr fun candidate mem held => ?_
  simp only [and_eq_true,decide_eq_true_eq] at held
  obtain ⟨there,-,named⟩ := mem_legacyRoots.mp root
  rw [directory.keyed.unique mem there (held.1.2.trans named.symm)] at held
  exact other held.2
end
end

section
variable {env : Env} {directory : Directory}

theorem level_entities {row : Entity} (mem : row ∈ level (nativeParents env directory) (directory.legacyRoots node) depth) : row ∈ directory.entities := by
  cases depth with
  | zero => exact (mem_legacyRoots.mp (mem_level_zero.mp mem)).1
  | succ =>
    obtain ⟨_,-,next⟩ := mem_level_succ.mp mem
    unfold nativeParents at next
    split at next
    · obtain ⟨_,-,parent⟩ := mem_flatMap.mp next
      exact (mem_filter.mp parent).1
    split at next
    · exact (mem_filter.mp next).1
    cases next

theorem lineage_perm (relations : env.relations) :
    (reading (unionRows (nativeParents env directory) (directory.legacyRoots node) 12)).Perm (directory.lineage node) := by
  refine unionRows_map (fun value => ?_) (fun row value => ?_) ?_
  · unfold Directory.roots Directory.live
    constructor
    · intro mem
      split at mem
      · rename_i live
        cases mem_singleton.mp mem
        obtain ⟨entity,there,held⟩ := any_eq_true.mp live
        exact ⟨entity,mem_filter.mpr ⟨there,held⟩,of_decide_eq_true (and_eq_true_iff.mp held).2⟩
      cases mem
    intro found
    obtain ⟨entity,root,rfl⟩ := found
    obtain ⟨there,held⟩ := mem_filter.mp root
    obtain rfl := of_decide_eq_true (and_eq_true_iff.mp held).2
    rw [if_pos (any_eq_true.mpr ⟨entity,there,held⟩)]
    exact mem_singleton_self _
  · unfold Directory.parents nativeParents Directory.live
    rw [if_pos relations]
    constructor
    · intro mem
      obtain ⟨relation,kept,rfl⟩ := mem_map.mp mem
      obtain ⟨there,held⟩ := mem_filter.mp kept
      obtain ⟨edge,live⟩ := and_eq_true_iff.mp held
      obtain ⟨entity,listed,own⟩ := any_eq_true.mp live
      refine ⟨entity,mem_flatMap.mpr ⟨relation,mem_filter.mpr ⟨there,edge⟩,mem_filter.mpr ⟨listed,own⟩⟩,?_⟩
      exact of_decide_eq_true (and_eq_true_iff.mp own).2
    intro found
    obtain ⟨entity,next,rfl⟩ := found
    obtain ⟨relation,kept,parent⟩ := mem_flatMap.mp next
    obtain ⟨there,edge⟩ := mem_filter.mp kept
    obtain ⟨listed,own⟩ := mem_filter.mp parent
    have same := of_decide_eq_true (and_eq_true_iff.mp own).2
    refine mem_map.mpr ⟨relation,mem_filter.mpr ⟨there,and_eq_true_iff.mpr ⟨edge,?_⟩⟩,same.symm⟩
    exact any_eq_true.mpr ⟨entity,listed,own⟩
  intro _ _ one _ other same
  exact directory.keyed.unique (level_entities one) (level_entities other) same

section
variable (flat : env.relations = false) (plain : Unambiguous directory node)
include flat plain

theorem legacy_level (within : depth ≤ 8) :
    level (nativeParents env directory) (directory.legacyRoots node) depth = bag directory.legacyParents (directory.legacyRoots node) depth ∧
      (bag directory.legacyParents (directory.legacyRoots node) depth).length ≤ 1 := by
  refine level_bag legacyRoots_short fun place before row mem => ?_
  have short : (directory.legacyParents row).length ≤ 1 := plain (row,place) (mem_bagRows.mpr ⟨show place ≤ 8 by omega,mem⟩) (show place < 8 by omega)
  refine ⟨short,?_⟩
  unfold nativeParents
  rw [if_neg (eq_false_iff.mp flat)]
  split
  · rfl
  rename_i other
  exact (length_eq_zero_iff.mp (by omega)).symm

theorem legacy_rows : unionRows (nativeParents env directory) (directory.legacyRoots node) 8 = directory.legacyLineage node := by
  unfold unionRows Directory.legacyLineage bagRows
  refine flatMap_congr fun depth mem => ?_
  rw [(legacy_level flat plain (Nat.le_of_lt_succ (mem_range.mp mem))).1]

theorem legacy_few : (directory.legacyLineage node).length ≤ 9 := by
  unfold Directory.legacyLineage bagRows
  rw [length_flatMap]
  refine (sum_le_card_nsmul _ 1 fun length mem => ?_).trans (by simp)
  obtain ⟨_,listed,rfl⟩ := mem_map.mp mem
  rw [length_map]
  exact (legacy_level flat plain (Nat.le_of_lt_succ (mem_range.mp listed))).2
end

theorem own_row (some_ : unionRows step (directory.legacyRoots node) bound ≠ []) : (node,0) ∈ reading (unionRows step (directory.legacyRoots node) bound) := by
  cases roots : directory.legacyRoots node with
  | nil =>
    rw [roots] at some_
    exact absurd unionRows_nil some_
  | cons entity =>
    have root : entity ∈ directory.legacyRoots node := roots ▸ mem_cons_self
    refine mem_map.mpr ⟨(entity,0),mem_unionRows.mpr ⟨Nat.zero_le _,mem_level_zero.mpr mem_cons_self⟩,?_⟩
    rw [(mem_legacyRoots.mp root).2.2]
end

section
variable {Principal : Type} {env : Env} {db : Db Principal} {workspaceId : String} {workspace : Workspace}
  {target : Scope}

def batchScopes (workspaceId : String) (workspace : Workspace) (target : Scope) (group : Group) : List Scope :=
  addExactStandaloneClientScope ((group.map fun row => Node.scope row.1.node)++[.workspace workspaceId,target]) workspace.rootType workspace.rootPublicId

def proved (env : Env) (db : Db Principal) (directory : Directory) (workspaceId : String) (workspace : Workspace) (target : Scope)
    (group : Group) : NativeTargetScopes :=
  ⟨target,batchScopes workspaceId workspace target group,group.map fun row => (row.1,retainedColumn env db directory row.1)⟩

def structural (db : Db Principal) : Db Principal := {db with termsReady := true}

theorem scope_injective : Function.Injective Node.scope := by
  intro left right same
  obtain ⟨_,_⟩ := left
  obtain ⟨_,_⟩ := right
  cases same
  rfl

theorem contains_root : (group.map fun row => Node.scope row.1.node).contains (.entity workspace.rootType.entity workspace.rootPublicId) =
    (reading group).any fun row => decide (row.1 = workspace.root) := by
  unfold reading
  rw [Bool.eq_iff_iff,contains_iff_mem,mem_map,any_map,any_eq_true]
  refine exists_congr fun row => and_congr_right fun _ => ?_
  show Node.scope row.1.node = Node.scope workspace.root ↔ decide (row.1.node = workspace.root) = true
  rw [decide_eq_true_eq]
  exact scope_injective.eq_iff

theorem retainedColumn_flat (flat : env.relations = false) (entity : Entity) : retainedColumn env db directory entity = 1 := by
  exact if_pos (.inr flat)

theorem counted_column (relations : env.relations) (entity : Entity) : decide (retainedColumn env db directory entity < 0) =
    !(decide (entity.type ≠ .project) || (directory.lifecycle entity.publicId).any (Lifecycle.counts db.now true)) := by
  unfold retainedColumn
  by_cases project : entity.type = .project
  · rw [if_neg (by simp [project,relations]),decide_eq_false (not_not.mpr project),Bool.false_or]
    cases directory.lifecycle entity.publicId with
    | none => rfl
    | some lifecycle =>
      have counts : lifecycle.counts db.now true := Bool.true_or _
      dsimp only
      split
      · rfl
      rfl
  rw [if_pos (.inl project),decide_eq_true project]
  rfl

theorem nativeScopes_relations (relations : env.relations) : nativeScopes env db directory workspaceId workspace target group =
    if validTarget (structural db) directory workspace.root (reading group) then some (proved env db directory workspaceId workspace target group)
    else none := by
  have empty : (reading group).isEmpty = group.isEmpty := isEmpty_map
  have length : (reading group).length = group.length := length_map ..
  have shallow : (group.any fun row => decide (12 ≤ row.2)) = !(reading group).all fun row => decide (row.2 < 12) := by
    unfold reading
    rw [all_map,all_eq_not_any_not,Bool.not_not]
    congr 1
    funext row
    show decide (12 ≤ row.2) = !decide (row.2 < 12)
    rw [←decide_not]
    exact decide_eq_decide.mpr (by omega)
  have counted : (group.any fun row => decide (retainedColumn env db directory row.1 < 0)) = !(reading group).all fun row =>
      decide (row.1.1 ≠ .project) || (directory.lifecycle row.1.2).any (Lifecycle.counts db.now true) := by
    unfold reading
    rw [all_map,all_eq_not_any_not,Bool.not_not]
    congr 1
    funext row
    exact counted_column relations row.1
  unfold nativeScopes validTarget
  dsimp only
  rw [relations,contains_root,shallow,counted,empty,length]
  show _ = if (!group.isEmpty && decide (group.length ≤ 64) && (reading group).all (fun row => decide (row.2 < 12)) &&
    (reading group).any (fun row => decide (row.1 = workspace.root)) && (reading group).all fun row =>
      decide (row.1.1 ≠ .project) || (directory.lifecycle row.1.2).any (Lifecycle.counts db.now true)) = true then _ else _
  by_cases few : group.length ≤ 64
  · rw [decide_eq_true few,if_pos rfl,decide_eq_false (Nat.not_lt.mpr few)]
    cases group.isEmpty <;> cases (reading group).all (fun row => decide (row.2 < 12)) <;>
      cases (reading group).any (fun row => decide (row.1 = workspace.root)) <;> cases (reading group).all (fun row =>
        decide (row.1.1 ≠ .project) || (directory.lifecycle row.1.2).any (Lifecycle.counts db.now true)) <;> rfl
  rw [decide_eq_false few,if_pos rfl,decide_eq_true (Nat.lt_of_not_le few)]
  simp

theorem nativeScopes_legacy (flat : env.relations = false) (few : group.length ≤ 10) : nativeScopes env db directory workspaceId workspace target group =
      if group ≠ [] ∧ (group.map fun row => row.1.node).Nodup ∧ (∃ row ∈ reading group, row.1 = workspace.root) then
        some (proved env db directory workspaceId workspace target group) else none := by
  have counted : (group.any fun row => decide (retainedColumn env db directory row.1 < 0)) = false := by
    refine any_eq_false.mpr fun row _ => ?_
    rw [retainedColumn_flat flat]
    decide
  have repeated : ((group.map fun row => Node.scope row.1.node).dedup.length ≠ group.length) ↔ ¬(group.map fun row => row.1.node).Nodup := by
    have scopes : (group.map fun row => Node.scope row.1.node) = (group.map fun row => row.1.node).map Node.scope := by
      rw [map_map]
      rfl
    rw [←nodup_map_iff scope_injective,←scopes,←dedup_eq_self]
    refine not_congr ⟨fun same => ?_,fun same => ?_⟩
    · exact (dedup_sublist _).eq_of_length (by rw [same,length_map])
    rw [same,length_map]
  have rooted : (reading group).any (fun row => decide (row.1 = workspace.root)) ↔ ∃ row ∈ reading group, row.1 = workspace.root := by
    simp only [any_eq_true,decide_eq_true_eq]
  unfold nativeScopes
  dsimp only
  rw [flat,contains_root,counted,if_neg Bool.false_ne_true,decide_eq_false (Nat.not_lt.mpr few)]
  simp only [Bool.or_false,Bool.false_and,Bool.not_false,Bool.true_and,decide_eq_true_eq,repeated]
  by_cases none_ : group = []
  · subst none_
    simp
  have held : group.isEmpty = false := by
    rw [eq_false_iff]
    exact fun empty => none_ (List.isEmpty_iff.mp empty)
  rw [held,if_neg Bool.false_ne_true]
  by_cases acyclic : (group.map fun row => row.1.node).Nodup
  · rw [if_neg (not_not.mpr acyclic)]
    by_cases reached : ∃ row ∈ reading group, row.1 = workspace.root
    · rw [rooted.mpr reached,if_neg (by decide),if_pos ⟨none_,acyclic,reached⟩]
      rfl
    rw [eq_false_iff.mpr (fun there => reached (rooted.mp there)),if_pos (by decide),if_neg fun holds => reached holds.2.2]
  rw [if_pos acyclic,if_neg fun holds => acyclic holds.2.1]

theorem addExact_congr (same : ∀ scope, scope ∈ scopes ↔ scope ∈ others) (scope : Scope) : scope ∈ addExactStandaloneClientScope scopes rootType rootPublicId ↔
      scope ∈ addExactStandaloneClientScope others rootType rootPublicId := by
  have inside : scopes.contains (.entity .standaloneClient rootPublicId) = others.contains (.entity .standaloneClient rootPublicId) := by
    rw [Bool.eq_iff_iff,contains_iff_mem,contains_iff_mem]
    exact same _
  unfold addExactStandaloneClientScope
  rw [inside]
  split
  · rw [mem_append,mem_append,same]
  exact same scope

theorem mem_batchScopes (start : startNode db workspaceId workspace target = some (node,own)) (root : (node,0) ∈ reading group)
    (same : ∀ row, row ∈ reading group ↔ row ∈ rows) (scope : Scope) :
    scope ∈ batchScopes workspaceId workspace target group ↔ scope ∈ checked workspaceId workspace own rows := by
  refine addExact_congr (fun scope => ?_) scope
  have nodes : scope ∈ (group.map fun row => Node.scope row.1.node) ↔ ∃ row ∈ rows, Node.scope row.1 = scope := by
    simp only [←same]
    rw [mem_map]
    constructor
    · intro found
      obtain ⟨row,mem,rfl⟩ := found
      exact ⟨_,mem_map.mpr ⟨row,mem,rfl⟩,rfl⟩
    intro found
    obtain ⟨_,mem,rfl⟩ := found
    obtain ⟨row,there,rfl⟩ := mem_map.mp mem
    exact ⟨row,there,rfl⟩
  rw [mem_append,nodes,mem_governing]
  simp only [mem_cons,not_mem_nil,or_false]
  cases target with
  | workspace => cases start
  | folder =>
    obtain ⟨_,-,named⟩ := map_eq_some_iff.mp start
    obtain ⟨-,rfl⟩ := Prod.mk.inj named
    rw [mem_singleton]
    exact or_comm.trans or_assoc
  | entity type publicId =>
    cases start
    have there : scope = .entity type publicId → ∃ row ∈ rows, Node.scope row.1 = scope :=
      fun named => ⟨_,(same _).mp root,named.symm⟩
    simp only [not_mem_nil,false_or]
    constructor
    · intro either
      rcases either with reached | workspace_ | named
      · exact .inr reached
      · exact .inl workspace_
      exact .inr (there named)
    intro either
    exact either.symm.imp_right .inl

theorem mem_expired {id : String} : id ∈ expiredProjects (proved env db directory workspaceId workspace target group) none ↔
    ∃ row ∈ group, row.1.node = (.project,id) ∧ retainedColumn env db directory row.1 = 0 := by
  unfold expiredProjects proved
  simp only [mem_map,mem_filter,and_eq_true,decide_eq_true_eq]
  constructor
  · intro found
    obtain ⟨_,⟨⟨row,mem,rfl⟩,⟨project,past⟩,-⟩,rfl⟩ := found
    exact ⟨row,mem,by unfold Entity.node; rw [project],past⟩
  intro found
  obtain ⟨row,mem,named,past⟩ := found
  obtain ⟨project,named⟩ := Prod.mk.inj named
  exact ⟨_,⟨⟨row,mem,rfl⟩,⟨project,past⟩,nofun⟩,named⟩
end

section
variable {Principal : Type} (env : Env) (db : Db Principal) (identityId workspaceId : String) (capability : Capability) (target : Scope)

def verdict (scopes : List Scope) (expired : List String) : Bool :=
  !deniedByIdentityRows (readDenials env db identityId workspaceId) workspaceId scopes &&
    allowedByEntitlementRows (readRules db workspaceId identityId capability) scopes expired false (historyOf capability target)

def pastWindows (scopes : List Scope) : List String := if db.termsReady then readExpiredScopeProjects env db workspaceId scopes else []

def Allowed (workspace : Workspace) : Prop := ∃ scopes, targetScopes env db workspaceId workspace target = some scopes ∧
  verdict env db identityId workspaceId capability target scopes (pastWindows env db workspaceId scopes) = true

variable {env db identityId workspaceId capability target} {workspace : Workspace}

theorem verdict_congr (scopesSame : ∀ scope, scope ∈ scopes ↔ scope ∈ others) (expiredSame : ∀ id, id ∈ expired ↔ id ∈ past) :
    verdict env db identityId workspaceId capability target scopes expired = verdict env db identityId workspaceId capability target others past := by
  unfold verdict
  rw [denied_congr scopesSame,allowed_congr scopesSame expiredSame]

theorem single_iff (v2 : env.hierarchyV2) (free : db.claimed workspaceId = false)
    (identity : resolveGlobalIdentity env db principal = some identityId) (mem : activeWorkspace db identityId workspaceId = some workspace)
    (root : activeRootExists db workspaceId workspace) (kind : capability ≠ .workspaceView) :
    authorizePortalWorkspaceCapability env db principal workspaceId capability target none ↔
      Allowed env db identityId workspaceId capability target workspace := by
  have all : ∀ ids : List String, ids.filter (fun id => decide (some id ≠ none)) = ids :=
    fun ids => filter_eq_self.mpr fun id _ => decide_eq_true nofun
  have shell : shellOf capability target = false := by
    unfold shellOf
    rw [decide_eq_false kind,Bool.false_and]
  have denied : ∀ scopes, identityDeniedForScopes env db identityId workspaceId scopes =
      deniedByIdentityRows (readDenials env db identityId workspaceId) workspaceId scopes := by
    intro _
    unfold identityDeniedForScopes readDenials
    cases env.denylistEnabled with
    | true | false => rfl
  unfold authorizePortalWorkspaceCapability Allowed verdict pastWindows
  rw [v2,free,identity,any_some,mem,any_some,root]
  simp only [Bool.not_false,Bool.true_and,Option.any_eq_true,all,shell,denied]

theorem verdict_past (ready : db.termsReady = false) {id : String} (mem : id ∈ expired) :
    verdict env db identityId workspaceId capability target scopes expired = false := by
  have some_ : expired.isEmpty = false := by
    rw [eq_false_iff]
    intro empty
    rw [List.isEmpty_iff.mp empty] at mem
    cases mem
  have refused : ∀ entitlement, projectAccessRowAllows (readRule db entitlement) scopes expired false (historyOf capability target) = false := by
    intro _
    unfold projectAccessRowAllows readRule Rule.ordinaryHistory
    rw [if_neg (eq_false_iff.mp ready),some_]
    simp
  rw [eq_false_iff]
  intro holds
  obtain ⟨-,-,_,-,-,allows⟩ := allowedRules_iff.mp (and_eq_true_iff.mp holds).2
  rw [refused] at allows
  cases allows

theorem of_iff (kept : db.workspaces workspaceId = some workspace)
    (active : db.activeDirectory workspaceId = some directory) (start : startNode db workspaceId workspace target = some (node,own)) :
    Of db workspaceId holds target ↔ holds directory node := by
  refine ⟨fun every => every workspace directory node own kept active start,fun one => ?_⟩
  intro _ _ _ _ same there begin
  rw [kept] at same
  cases same
  rw [active] at there
  cases there
  rw [start] at begin
  cases begin
  exact one

theorem legacyScopes_iff (active : db.activeDirectory workspaceId = some directory)
    (start : startNode db workspaceId workspace target = some (node,own)) : legacyTargetScopes db workspaceId workspace target = some scopes ↔
      directory.schemaVersion ≠ some 3 ∧ (directory.legacyLineage node).take 10 ≠ [] ∧
        (∃ row ∈ reading ((directory.legacyLineage node).take 10), row.1 = workspace.root) ∧
        scopes = checked workspaceId workspace own (reading ((directory.legacyLineage node).take 10)) := by
  obtain ⟨_,stored,kept⟩ := bind_eq_some_iff.mp active
  obtain ⟨_,-,same⟩ := map_eq_some_iff.mp kept
  have folders := startNode_folders start
  have unfolded : legacyTargetScopes db workspaceId workspace target =
      if directory.schemaVersion = some 3 then none
      else if (directory.legacyLineage node).take 10 = [] then none
      else if (governing workspaceId own (reading ((directory.legacyLineage node).take 10))).contains
          (.entity workspace.rootType.entity workspace.rootPublicId) then
        some (checked workspaceId workspace own (reading ((directory.legacyLineage node).take 10)))
      else none := by
    unfold legacyTargetScopes
    rw [stored,any_some,same]
    have scopesSame : governing workspaceId own (reading ((directory.legacyLineage node).take 10)) =
        .workspace workspaceId :: (own++((directory.legacyLineage node).take 10).map fun row => Node.scope row.1.node) := by
      unfold governing reading
      rw [map_map]
      rfl
    unfold checked
    rw [scopesSame]
    cases target with
    | workspace => cases start
    | folder | entity =>
      rw [start,bind_some,active,bind_some]
      simp only [List.isEmpty_iff,decide_eq_true_eq]
  rw [unfolded]
  by_cases third : directory.schemaVersion = some 3
  · rw [if_pos third]
    exact ⟨nofun,fun holds => absurd third holds.1⟩
  rw [if_neg third]
  by_cases none_ : (directory.legacyLineage node).take 10 = []
  · rw [if_pos none_]
    exact ⟨nofun,fun holds => absurd none_ holds.2.1⟩
  rw [if_neg none_]
  by_cases reached : ∃ row ∈ reading ((directory.legacyLineage node).take 10), row.1 = workspace.root
  · rw [if_pos (contains_iff_mem.mpr ((governing_entity folders).mpr reached))]
    exact ⟨fun found => ⟨third,none_,reached,(Option.some.inj found).symm⟩,fun holds => congrArg some holds.2.2.2.symm⟩
  rw [if_neg fun there => reached ((governing_entity folders).mp (contains_iff_mem.mp there))]
  exact ⟨nofun,fun holds => absurd holds.2.2.1 reached⟩
end

section
variable {Principal : Type} {env : Env} {db : Db Principal} {identityId workspaceId : String} {capability : Capability} {target : Scope}
  {workspace : Workspace}

def Retained (db : Db Principal) (directory : Directory) (rows : Rows) : Prop :=
  ∀ row ∈ rows, row.1.1 = .project → (directory.lifecycle row.1.2).bind (Lifecycle.retained db.now) = some true

theorem validTarget_iff : validTarget db directory node rows ↔
    validTarget (structural db) directory node rows ∧ (db.termsReady ∨ Retained db directory rows) := by
  cases ready : db.termsReady with
  | true =>
    have same : structural db = db := by
      unfold structural
      rw [←ready]
    rw [same]
    exact (and_iff_left (.inl rfl)).symm
  | false =>
    unfold validTarget structural Retained
    rw [ready]
    simp only [and_eq_true,and_assoc,Bool.false_eq_true,false_or,all_eq_true,Bool.or_eq_true,decide_eq_true_eq]
    refine and_congr_right fun _ => and_congr_right fun _ => and_congr_right fun _ => and_congr_right fun _ => ?_
    constructor
    · intro counted
      refine ⟨fun row mem => (counted row mem).imp_right fun held => ?_,fun row mem project => ?_⟩
      · obtain ⟨_,found,-⟩ := (Option.any_eq_true _ _).mp held
        rw [found]
        rfl
      obtain ⟨_,found,held⟩ := (Option.any_eq_true _ _).mp ((counted row mem).resolve_left (not_not.mpr project))
      rw [found,bind_some]
      exact beq_iff_eq.mp held
    intro holds row mem
    by_cases project : row.1.1 = .project
    · refine .inr ?_
      obtain ⟨_,found,held⟩ := bind_eq_some_iff.mp (holds.2 row mem project)
      rw [found,any_some]
      exact beq_iff_eq.mpr held
    exact .inl project

theorem column_past (relations : env.relations) (project : entity.type = .project)
    (known : (directory.lifecycle entity.publicId).isSome) : retainedColumn env db directory entity = 0 ↔
      (directory.lifecycle entity.publicId).bind (Lifecycle.retained db.now) ≠ some true := by
  obtain ⟨lifecycle,found⟩ := Option.isSome_iff_exists.mp known
  unfold retainedColumn
  rw [if_neg (by simp [project,relations]),found,bind_some]
  dsimp only
  split
  · rename_i held
    exact ⟨nofun,fun other => absurd held other⟩
  rename_i other
  exact ⟨fun _ => other,fun _ => rfl⟩

theorem valid_known (valid : validTarget (structural db) directory node rows) {row : Node × Nat} (mem : row ∈ rows)
    (project : row.1.1 = .project) : (directory.lifecycle row.1.2).isSome := by
  have counted := all_eq_true.mp (and_eq_true_iff.mp valid).2 row mem
  rw [decide_eq_false (not_not.mpr project),Bool.false_or] at counted
  obtain ⟨_,found,-⟩ := (Option.any_eq_true _ _).mp counted
  rw [found]
  rfl

section
variable (relations : env.relations) (active : db.activeDirectory workspaceId = some directory)
include relations active

theorem mem_past (folders : Folders own) (same : ∀ row, row ∈ reading group ↔ row ∈ rows)
    (valid : validTarget (structural db) directory workspace.root rows) {id : String} :
    id ∈ expiredProjects (proved env db directory workspaceId workspace target group) none ↔
      id ∈ readExpiredScopeProjects env db workspaceId (checked workspaceId workspace own rows) := by
  rw [mem_expired,expired_iff relations active,checked_project folders]
  constructor
  · intro found
    obtain ⟨row,mem,named,past⟩ := found
    obtain ⟨project,rfl⟩ := Prod.mk.inj named
    have there : (row.1.node,row.2) ∈ rows := (same _).mp (mem_map.mpr ⟨row,mem,rfl⟩)
    exact ⟨⟨_,there,named⟩,(column_past relations project (valid_known valid there project)).mp past⟩
  intro found
  obtain ⟨⟨_,there,named⟩,past⟩ := found
  obtain ⟨entry,mem,rfl⟩ := mem_map.mp ((same _).mpr there)
  obtain ⟨project,rfl⟩ := Prod.mk.inj named
  exact ⟨entry,mem,named,(column_past relations project (valid_known valid there project)).mpr past⟩

theorem related_agrees (start : startNode db workspaceId workspace target = some (node,own))
    (order : group.Perm (unionRows (nativeParents env directory) (directory.legacyRoots node) 12)) :
    (nativeScopes env db directory workspaceId workspace target group).any (fun scope =>
        verdict env db identityId workspaceId capability target scope.scopes (expiredProjects scope none)) ↔
      Allowed env db identityId workspaceId capability target workspace := by
  have aligned : (reading group).Perm (directory.lineage node) := (order.map _).trans (lineage_perm relations)
  have folders := startNode_folders start
  unfold Allowed targetScopes
  have valid_iff := @validTarget_iff Principal db directory workspace.root (directory.lineage node)
  simp only [if_pos relations,relationScopes_iff active start,valid_iff]
  rw [nativeScopes_relations relations,validTarget_perm aligned]
  by_cases valid : validTarget (structural db) directory workspace.root (directory.lineage node)
  · rw [if_pos valid,any_some]
    have some_ : unionRows (nativeParents env directory) (directory.legacyRoots node) 12 ≠ [] := by
      intro none_
      rw [none_] at order
      have empty : directory.lineage node = [] := by
        rw [order.eq_nil] at aligned
        exact aligned.nil_eq.symm
      rw [empty] at valid
      cases valid
    have root : (node,0) ∈ reading group := (order.map _).mem_iff.mpr (own_row some_)
    have scopesSame := mem_batchScopes start root fun row => aligned.mem_iff
    have expiredSame : ∀ id, id ∈ expiredProjects (proved env db directory workspaceId workspace target group) none ↔
        id ∈ readExpiredScopeProjects env db workspaceId (checked workspaceId workspace own (directory.lineage node)) :=
      fun id => mem_past relations active folders (fun row => aligned.mem_iff) valid
    constructor
    · intro holds
      cases ready : db.termsReady with
      | true =>
        refine ⟨_,⟨⟨valid,.inl rfl⟩,rfl⟩,?_⟩
        unfold pastWindows
        rw [if_pos ready,←verdict_congr scopesSame expiredSame]
        exact holds
      | false =>
        have none_ : ∀ id, id ∉ expiredProjects (proved env db directory workspaceId workspace target group) none := by
          intro _ mem
          rw [verdict_past ready mem] at holds
          cases holds
        refine ⟨_,⟨⟨valid,.inr fun row mem project => ?_⟩,rfl⟩,?_⟩
        · by_contra past
          refine none_ row.1.2 ((expiredSame _).mpr ((expired_iff relations active).mpr ⟨(checked_project folders).mpr ⟨row,mem,?_⟩,past⟩))
          rw [←project]
        have nothing : ∀ id, id ∈ expiredProjects (proved env db directory workspaceId workspace target group) none ↔ id ∈ ([] : List String) :=
          fun id => ⟨fun mem => absurd mem (none_ id),nofun⟩
        unfold pastWindows
        rw [if_neg (eq_false_iff.mp ready),←verdict_congr scopesSame nothing]
        exact holds
    intro found
    obtain ⟨_,⟨⟨-,kept⟩,rfl⟩,holds⟩ := found
    unfold pastWindows at holds
    cases ready : db.termsReady with
    | true =>
      rw [if_pos ready,←verdict_congr scopesSame expiredSame] at holds
      exact holds
    | false =>
      rw [if_neg (eq_false_iff.mp ready)] at holds
      rw [ready] at kept
      have retained := kept.resolve_left nofun
      refine (verdict_congr scopesSame fun id => ?_).trans holds
      refine (expiredSame id).trans ⟨fun mem => ?_,nofun⟩
      obtain ⟨there,past⟩ := (expired_iff relations active).mp mem
      obtain ⟨row,listed,named⟩ := (checked_project folders).mp there
      obtain ⟨project,rfl⟩ := Prod.mk.inj named
      exact absurd (retained row listed project) past
  · rw [if_neg valid]
    refine ⟨nofun,fun found => ?_⟩
    obtain ⟨_,⟨⟨held,-⟩,-⟩,-⟩ := found
    exact absurd held valid
end

theorem legacy_agrees (flat : env.relations = false) (active : db.activeDirectory workspaceId = some directory)
    (contract : directory.schemaVersion ≠ some 3) (start : startNode db workspaceId workspace target = some (node,own))
    (plain : Unambiguous directory node) (order : group.Perm (unionRows (nativeParents env directory) (directory.legacyRoots node) 8)) :
    (nativeScopes env db directory workspaceId workspace target group).any (fun scope =>
        verdict env db identityId workspaceId capability target scope.scopes (expiredProjects scope none)) ↔
      Allowed env db identityId workspaceId capability target workspace ∧ Acyclic directory node := by
  have few := legacy_few flat plain
  have rooted : unionRows (nativeParents env directory) (directory.legacyRoots node) 8 ≠ [] →
      (node,0) ∈ reading (unionRows (nativeParents env directory) (directory.legacyRoots node) 8) := own_row
  rw [legacy_rows flat plain] at order rooted
  have aligned : (reading group).Perm (reading (directory.legacyLineage node)) := order.map _
  have acyclic : (group.map fun row => row.1.node).Nodup ↔ Acyclic directory node := (order.map _).nodup_iff
  have none_ : group ≠ [] ↔ directory.legacyLineage node ≠ [] := by
    rw [←length_pos_iff,←length_pos_iff,order.length_eq]
  have reached : (∃ row ∈ reading group, row.1 = workspace.root) ↔ ∃ row ∈ reading (directory.legacyLineage node), row.1 = workspace.root := by
    simp only [aligned.mem_iff]
  have past : pastWindows env db workspaceId = fun _ => [] := by
    funext scopes
    unfold pastWindows readExpiredScopeProjects
    rw [if_neg (eq_false_iff.mp flat)]
    exact ite_self []
  have short : (directory.legacyLineage node).take 10 = directory.legacyLineage node := take_of_length_le (few.trans (by decide))
  unfold Allowed targetScopes
  simp only [if_neg (eq_false_iff.mp flat),legacyScopes_iff active start,short,past]
  have conditions := and_congr none_ (and_congr acyclic reached)
  rw [nativeScopes_legacy flat (order.length_eq.le.trans (few.trans (by decide)))]
  by_cases holds : directory.legacyLineage node ≠ [] ∧ Acyclic directory node ∧
      ∃ row ∈ reading (directory.legacyLineage node), row.1 = workspace.root
  · rw [if_pos (conditions.mpr holds),any_some]
    have root : (node,0) ∈ reading group := aligned.mem_iff.mpr (rooted holds.1)
    have expired : ∀ id, id ∈ expiredProjects (proved env db directory workspaceId workspace target group) none ↔ id ∈ ([] : List String) := by
      intro _
      rw [mem_expired]
      refine ⟨fun found => ?_,nofun⟩
      obtain ⟨_,-,-,column⟩ := found
      rw [retainedColumn_flat flat] at column
      cases column
    have same : verdict env db identityId workspaceId capability target (proved env db directory workspaceId workspace target group).scopes
        (expiredProjects (proved env db directory workspaceId workspace target group) none) =
          verdict env db identityId workspaceId capability target (checked workspaceId workspace own (reading (directory.legacyLineage node))) [] :=
      verdict_congr (mem_batchScopes start root fun row => aligned.mem_iff) expired
    rw [same]
    constructor
    · exact fun verdict_ => ⟨⟨_,⟨contract,holds.1,holds.2.2,rfl⟩,verdict_⟩,holds.2.1⟩
    intro found
    obtain ⟨⟨_,⟨-,-,-,rfl⟩,verdict_⟩,-⟩ := found
    exact verdict_
  rw [if_neg (mt conditions.mp holds)]
  refine ⟨nofun,fun found => ?_⟩
  obtain ⟨⟨_,⟨-,some_,there,-⟩,-⟩,once⟩ := found
  exact absurd ⟨some_,once,there⟩ holds

theorem nativeScopes_nil : nativeScopes env db directory workspaceId workspace target [] = none := rfl

theorem group_agrees (kept : db.workspaces workspaceId = some workspace) (active : db.activeDirectory workspaceId = some directory)
    (contract : env.relations ∨ directory.schemaVersion ≠ some 3) (traceable : Traceable env db workspaceId target)
    (order : group.Perm (unionRows (nativeParents env directory) (nativeRoots db directory workspaceId workspace target) (nativeDepth env))) :
    (nativeScopes env db directory workspaceId workspace target group).any (fun scope =>
        verdict env db identityId workspaceId capability target scope.scopes (expiredProjects scope none)) ↔
      Allowed env db identityId workspaceId capability target workspace ∧ Suits env db workspaceId target := by
  have bare : nativeRoots db directory workspaceId workspace target = [] → nativeScopes env db directory workspaceId workspace target group = none := by
    intro none_
    rw [none_,unionRows_nil] at order
    rw [order.eq_nil,nativeScopes_nil]
  cases start : startNode db workspaceId workspace target with
  | none =>
    rw [bare (nativeRoots_none start)]
    refine ⟨nofun,fun holds => ?_⟩
    obtain ⟨⟨_,resolved,-⟩,suits⟩ := holds
    cases target with
    | workspace => cases suits.1
    | entity => cases start
    | folder =>
      unfold targetScopes resolvePortalRelationTargetScopes legacyTargetScopes at resolved
      rw [start] at resolved
      split at resolved
      · cases resolved
      split at resolved
      · cases resolved
      cases resolved
  | some found =>
    obtain ⟨node,_⟩ := found
    have entity : workspaceTarget target = false := by
      cases target with
      | workspace => cases start
      | folder | entity => rfl
    unfold Suits
    rw [entity,of_iff kept active start,of_iff kept active start]
    by_cases fresh : Fresh db workspaceId directory target node
    · rw [nativeRoots_fresh start fresh] at order
      unfold nativeDepth at order
      cases flat : env.relations with
      | true =>
        rw [if_pos flat] at order
        exact (related_agrees flat active start order).trans (and_iff_left ⟨rfl,fresh,.inl rfl⟩).symm
      | false =>
        rw [if_neg (eq_false_iff.mp flat)] at order
        unfold Traceable at traceable
        rw [flat] at contract traceable
        have plain := (of_iff kept active start).mp (traceable.resolve_left nofun)
        refine (legacy_agrees flat active (contract.resolve_left nofun) start plain order).trans (and_congr_right fun _ => ?_)
        exact ⟨fun acyclic => ⟨rfl,fresh,.inr acyclic⟩,fun suits => suits.2.2.resolve_left nofun⟩
    rw [bare (nativeRoots_stale start fresh)]
    exact ⟨nofun,fun holds => absurd holds.2.2.1 fresh⟩

theorem find_target {read : Scope → Option NativeTargetScopes} {requested : List Scope}
    (own : ∀ target scope, read target = some scope → scope.target = target) (listed : target ∈ requested) :
    (requested.filterMap read).find? (fun scope => decide (scope.target = target)) = read target := by
  induction requested with
  | nil => cases listed
  | cons head _ ih =>
    rw [filterMap_cons]
    cases found : read head with
    | none =>
      rcases mem_cons.mp listed with rfl | later
      · rw [found]
        refine find?_eq_none.mpr fun scope mem => ?_
        obtain ⟨other,-,given⟩ := mem_filterMap.mp mem
        rw [decide_eq_true_eq]
        intro same
        have named := own other scope given
        rw [←same,named,given] at found
        cases found
      exact ih later
    | some scope =>
      have named := own head scope found
      by_cases here : scope.target = target
      · refine (find?_cons_of_pos (by simpa using here)).trans ?_
        rw [←here,named,found]
      refine (List.find?_cons_of_neg (by simpa using here)).trans ?_
      refine ih ((mem_cons.mp listed).resolve_left fun same => here ?_)
      rw [same,named]

theorem nativeScopes_target (found : nativeScopes env db directory workspaceId workspace target group = some scope) : scope.target = target := by
  unfold nativeScopes at found
  simp only [Option.ite_none_left_eq_some] at found
  obtain ⟨-,-,-,same⟩ := found
  cases same
  rfl

theorem read_agrees {targets : List Scope} {scopes : List NativeTargetScopes} (kept : db.workspaces workspaceId = some workspace)
    (active : db.activeDirectory workspaceId = some directory) (returned : readNativeTargetScopes env db workspaceId workspace targets = some scopes)
    (mem : target ∈ targets) (traceable : Traceable env db workspaceId target) : (scopes.find? fun scope => decide (scope.target = target)).any (fun scope =>
        verdict env db identityId workspaceId capability target scope.scopes (expiredProjects scope none)) ↔
      Allowed env db identityId workspaceId capability target workspace ∧ Suits env db workspaceId target := by
  unfold readNativeTargetScopes nativeDirectory at returned
  rw [active] at returned
  obtain ⟨-,returned⟩ := Option.ite_none_left_eq_some.mp returned
  by_cases contract : (env.relations || decide (directory.schemaVersion ≠ some 3))
  · rw [filter_some,if_pos contract] at returned
    obtain ⟨room,returned⟩ := Option.ite_none_left_eq_some.mp returned
    obtain rfl := Option.some.inj returned
    have whole : (unionRows (tagged (nativeParents env directory)) (bases (nativeRoots db directory workspaceId workspace) targets.dedup)
        (nativeDepth env)).take (targets.length*65+1) =
        unionRows (tagged (nativeParents env directory)) (bases (nativeRoots db directory workspaceId workspace) targets.dedup) (nativeDepth env) := by
      rw [length_take] at room
      exact take_of_length_le (by omega)
    have listed : target ∈ targets.dedup := mem_dedup.mpr mem
    rw [whole,find_target (fun _ _ => nativeScopes_target) listed]
    refine group_agrees kept active ?_ traceable (ofTarget_perm listed)
    exact (Bool.or_eq_true_iff.mp contract).imp_right of_decide_eq_true
  rw [filter_some,if_neg contract] at returned
  obtain rfl := Option.some.inj returned
  obtain ⟨flat,third⟩ := Bool.or_eq_false_iff.mp (eq_false_iff.mpr contract)
  refine ⟨nofun,fun holds => ?_⟩
  obtain ⟨⟨_,resolved,-⟩,-⟩ := holds
  obtain ⟨_,stored,rest⟩ := bind_eq_some_iff.mp active
  obtain ⟨_,-,same⟩ := map_eq_some_iff.mp rest
  unfold targetScopes legacyTargetScopes at resolved
  rw [if_neg (eq_false_iff.mp flat),stored,any_some,same,
    if_pos (decide_eq_true (not_not.mp (of_decide_eq_false third)))] at resolved
  cases resolved

theorem batch_agrees {principal : Principal} {targets result : List Scope} (kind : capability = .deliveryView ∨ capability = .directoryRead)
    (done : authorizePrimaryPortalTargetBatch env db principal workspaceId (targets.map fun target => (target,none)) capability = some result)
    (member : target ∈ targets) (traceable : Traceable env db workspaceId target) :
    target ∈ result ↔ authorizePortalWorkspaceCapability env db principal workspaceId capability target none = true ∧ Suits env db workspaceId target := by
  have view : capability ≠ .workspaceView := by
    rcases kind with rfl | rfl
    · exact nofun
    exact nofun
  have refused : authorizePortalWorkspaceCapability env db principal workspaceId capability target none = false → result = [] →
      (target ∈ result ↔ authorizePortalWorkspaceCapability env db principal workspaceId capability target none = true ∧ Suits env db workspaceId target) := by
    intro no empty
    rw [no,empty]
    exact ⟨nofun,fun holds => nomatch holds.1⟩
  have asked : (targets.map fun target => ((target,none) : Scope × Option String)).isEmpty = false := by
    rw [isEmpty_map,eq_false_iff]
    intro empty
    rw [List.isEmpty_iff.mp empty] at member
    cases member
  unfold authorizePrimaryPortalTargetBatch at done
  rw [asked,Bool.or_false] at done
  cases v2 : env.hierarchyV2 with
  | false =>
    rw [v2] at done
    refine refused ?_ (Option.some.inj done).symm
    unfold authorizePortalWorkspaceCapability
    rw [v2]
    rfl
  | true =>
    cases claimed : db.claimed workspaceId with
    | true =>
      rw [v2,claimed] at done
      refine refused ?_ (Option.some.inj done).symm
      unfold authorizePortalWorkspaceCapability
      rw [v2,claimed]
      rfl
    | false =>
      rw [v2,claimed,if_neg (by decide)] at done
      split at done
      · cases done
      cases identity : resolveGlobalIdentity env db principal with
      | none =>
        rw [identity] at done
        refine refused ?_ (Option.some.inj done).symm
        unfold authorizePortalWorkspaceCapability
        rw [identity,any_none,Bool.and_false]
      | some identityId =>
        rw [identity] at done
        dsimp only at done
        cases own : (activeWorkspace db identityId workspaceId).filter (activeRootExists db workspaceId) with
        | none =>
          rw [own] at done
          refine refused ?_ (Option.some.inj done).symm
          unfold authorizePortalWorkspaceCapability
          rw [identity,any_some]
          cases mine : activeWorkspace db identityId workspaceId with
          | none => rw [any_none,Bool.and_false]
          | some workspace =>
            rw [mine] at own
            have rootless : activeRootExists db workspaceId workspace = false := by
              rw [eq_false_iff]
              intro root
              rw [filter_some,if_pos root] at own
              cases own
            rw [any_some,rootless,Bool.false_and,Bool.and_false]
        | some =>
          obtain ⟨mine,root⟩ := Option.filter_eq_some_iff.mp own
          rw [own] at done
          dsimp only at done
          obtain ⟨_,returned,rfl⟩ := map_eq_some_iff.mp done
          obtain ⟨_,active,-⟩ := (Option.any_eq_true _ _).mp root
          have names : (targets.map fun target => ((target,none) : Scope × Option String)).map Prod.fst = targets := by
            rw [map_map]
            exact map_id targets
          rw [names] at returned
          rw [single_iff v2 claimed identity mine root view, ← read_agrees (Option.filter_eq_some_iff.mp mine).1 active returned member traceable,mem_map]
          constructor
          · intro found
            obtain ⟨_,kept,rfl⟩ := found
            obtain ⟨there,held⟩ := mem_filter.mp kept
            obtain ⟨_,-,rfl⟩ := mem_map.mp there
            exact held
          intro held
          exact ⟨(target,none),mem_filter.mpr ⟨mem_map.mpr ⟨target,member,rfl⟩,held⟩,rfl⟩
end

-- Where the batch and the check differ: a workspace, a folder bound to another owner version, a parent that is its
-- own ancestor, a parent's ID of two entities.

def BatchAgrees {Principal : Type} (env : Env) (db : Db Principal) (principal : Principal) (workspaceId : String) (targets : List Scope)
    (capability : Capability) : Prop := ∀ result,
  authorizePrimaryPortalTargetBatch env db principal workspaceId (targets.map fun target => (target,none)) capability = some result →
  ∀ target ∈ targets, target ∈ result ↔ authorizePortalWorkspaceCapability env db principal workspaceId capability target none = true

def legacyFlags : Env := ⟨true,false,true⟩
def boundTo (version : String) : Db Unit := {sampleDb [] with bindings := [⟨"f","w",.project,"site",some version,true⟩]}
def treeRow (node : Node) (parent : Option String) : Entity := ⟨node.1,node.2,parent,"",("1" : String),true⟩

def treeOf (rows : List Entity) (keyed : (rows.map Entity.node).Nodup) : Db Unit :=
  {sampleDb [] with directories := fun _ _ => ⟨rows,keyed,[],fun _ => none,some 2⟩}

def selfParent : Db Unit := treeOf [treeRow organization (some "org"),treeRow project (some "org")] (by decide)
def sharedParent : Db Unit := treeOf [treeRow organization none,treeRow (.department,"org") none,treeRow project (some "org")] (by decide)

def batchOf (env : Env) (db : Db Unit) (target : Scope) : Option (List Scope) :=
  authorizePrimaryPortalTargetBatch env db () "w" ([target].map fun target => (target,none)) .directoryRead

def checkOf (env : Env) (db : Db Unit) (target : Scope) : Bool := authorizePortalWorkspaceCapability env db () "w" .directoryRead target none

theorem differs (empty : batchOf env db target = some []) (allowed : checkOf env db target) : ¬BatchAgrees env db () "w" [target] .directoryRead := by
  intro agrees
  cases (agrees [] empty target (mem_singleton_self _)).mpr allowed

theorem batch_differs : ¬BatchAgrees everyFlag (sampleDb []) () "w" [.workspace "w"] .directoryRead ∧
    ¬BatchAgrees everyFlag (boundTo "0") () "w" [.folder "f"] .directoryRead ∧
    ¬BatchAgrees legacyFlags selfParent () "w" [.entity .project "site"] .directoryRead ∧
    ¬BatchAgrees legacyFlags sharedParent () "w" [.entity .project "site"] .directoryRead :=
  ⟨differs (by decide +kernel) (by decide +kernel),differs (by decide +kernel) (by decide +kernel),
    differs (by decide +kernel) (by decide +kernel),differs (by decide +kernel) (by decide +kernel)⟩

theorem batch_agrees_example : batchOf everyFlag (boundTo "1") (.folder "f") = some [.folder "f"] ∧
    (Scope.folder "f" ∈ [Scope.folder "f"] ↔ authorizePortalWorkspaceCapability everyFlag (boundTo "1") () "w" .directoryRead (.folder "f") none = true ∧
      Suits everyFlag (boundTo "1") "w" (.folder "f")) := by
  have returned : batchOf everyFlag (boundTo "1") (.folder "f") = some [.folder "f"] := by decide +kernel
  exact ⟨returned,batch_agrees (.inr rfl) returned (mem_singleton_self (Scope.folder "f")) (.inl rfl)⟩
end LedgeTopOps.PortalAuthority
