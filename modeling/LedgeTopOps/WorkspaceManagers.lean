import LedgeTopOps.PeerAdministrators

namespace LedgeTopOps.PeerAdministrators
open List PortalAuthority
open Bool (and_eq_true not_eq_true' and_eq_true_iff)

section
variable {Principal : Type} (env : Env) (db : Db Principal) (workspaceId identityId : String)

def MayDo (capability : Capability) : Prop :=
  allowedByEntitlementRows (readRules db workspaceId identityId capability) [.workspace workspaceId] [] (shellOf capability (.workspace workspaceId))
    (historyOf capability (.workspace workspaceId)) = true

structure Site : Prop where
  enabled : env.hierarchyV2 = true
  free : db.claimed workspaceId = false
  workspace : ∃ workspace, db.workspaces workspaceId = some workspace ∧ workspace.active = true ∧ db.rootAccessAllowed workspaceId = true ∧
    db.primaryWorkspaceAccount workspaceId = true ∧ activeRootExists db workspaceId workspace = true ∧
    targetScopes env db workspaceId workspace (.workspace workspaceId) = some [.workspace workspaceId]

def Member : Prop := db.memberships.any (fun membership => decide (membership.workspaceId = workspaceId) &&
  decide (membership.identityId = identityId) && membership.current db.now) = true

def Undenied : Prop := deniedByIdentityRows (readDenials env db identityId workspaceId) workspaceId [.workspace workspaceId] = false

structure Standing : Prop where
  resolved : ∃ principal, resolveGlobalIdentity env db principal = some identityId
  legacy : db.primaryLegacyWorkspaceMembership workspaceId identityId = true
  member : Member db workspaceId identityId
  undenied : Undenied env db workspaceId identityId
  view : MayDo db workspaceId identityId .workspaceView
  manage : MayDo db workspaceId identityId .memberManage

def Manager : Prop := ∃ principal, resolveGlobalIdentity env db principal = some identityId ∧
  authorizePortalWorkspaceCapability env db principal workspaceId .workspaceView (.workspace workspaceId) none = true ∧
  authorizePortalWorkspaceCapability env db principal workspaceId .memberManage (.workspace workspaceId) none = true

def Managed : Prop := ∃ identityId, Manager env db workspaceId identityId

variable {env db workspaceId identityId}

theorem workspaceScopes : targetScopes env db workspaceId workspace (.workspace workspaceId) = some scopes ↔
    targetScopes env db workspaceId workspace (.workspace workspaceId) = some [.workspace workspaceId] ∧ scopes = [.workspace workspaceId] := by
  have either : targetScopes env db workspaceId workspace (.workspace workspaceId) = none ∨
      targetScopes env db workspaceId workspace (.workspace workspaceId) = some [.workspace workspaceId] := by
    unfold targetScopes resolvePortalRelationTargetScopes legacyTargetScopes
    dsimp only
    rw [if_pos rfl]
    split
    · exact .inr rfl
    split
    · exact .inl rfl
    exact .inr rfl
  rcases either with none_ | some_
  · rw [none_]
    exact ⟨nofun,fun holds => nomatch holds.1⟩
  rw [some_]
  exact ⟨fun same => ⟨rfl,(Option.some.inj same).symm⟩,fun holds => congrArg some holds.2.symm⟩

theorem authorize_workspace_iff : authorizePortalWorkspaceCapability env db principal workspaceId capability (.workspace workspaceId) none ↔
      Site env db workspaceId ∧ ∃ identityId, resolveGlobalIdentity env db principal = some identityId ∧
        db.primaryLegacyWorkspaceMembership workspaceId identityId ∧ Member db workspaceId identityId ∧
        Undenied env db workspaceId identityId ∧ MayDo db workspaceId identityId capability := by
  have past : readExpiredScopeProjects env db workspaceId [.workspace workspaceId] = [] := by
    exact ite_self []
  have denied : ∀ identityId, identityDeniedForScopes env db identityId workspaceId [.workspace workspaceId] =
      deniedByIdentityRows (readDenials env db identityId workspaceId) workspaceId [.workspace workspaceId] := by
    intro _
    unfold identityDeniedForScopes readDenials
    cases env.denylistEnabled with
    | true | false => rfl
  unfold authorizePortalWorkspaceCapability activeWorkspace
  simp only [and_eq_true,not_eq_true',Option.any_eq_true,Option.filter_eq_some_iff]
  constructor
  · intro holds
    obtain ⟨⟨enabled,free⟩,identityId,resolved,workspace,⟨kept,⟨⟨⟨active,allowed⟩,account⟩,legacy⟩,mem⟩,root,_,names,undenied,rules⟩ := holds
    obtain ⟨known,rfl⟩ := workspaceScopes.mp names
    rw [past] at rules
    refine ⟨⟨enabled,free,workspace,kept,active,allowed,account,root,known⟩,identityId,resolved,legacy,mem,?_,?_⟩
    · unfold Undenied
      rw [←denied]
      exact undenied
    rw [ite_self] at rules
    exact rules
  intro holds
  obtain ⟨site,identityId,resolved,legacy,mem,undenied,rules⟩ := holds
  obtain ⟨workspace,kept,active,allowed,account,root,known⟩ := site.workspace
  refine ⟨⟨site.enabled,site.free⟩,identityId,resolved,workspace,⟨kept,⟨⟨⟨active,allowed⟩,account⟩,legacy⟩,mem⟩,root,_,known,?_,?_⟩
  · rw [denied]
    exact undenied
  rw [past,ite_self]
  exact rules

theorem manager_iff : Manager env db workspaceId identityId ↔ Site env db workspaceId ∧ Standing env db workspaceId identityId := by
  unfold Manager
  simp only [authorize_workspace_iff]
  constructor
  · intro manager
    obtain ⟨principal,resolved,⟨site,_,found,legacy,mem,undenied,view⟩,-,_,same,-,-,-,manage⟩ := manager
    rw [resolved] at found same
    cases found
    cases same
    exact ⟨site,⟨principal,resolved⟩,legacy,mem,undenied,view,manage⟩
  intro holds
  obtain ⟨site,standing⟩ := holds
  obtain ⟨principal,resolved⟩ := standing.resolved
  exact ⟨principal,resolved,⟨site,identityId,resolved,standing.legacy,standing.member,standing.undenied,standing.view⟩,
    site,identityId,resolved,standing.legacy,standing.member,standing.undenied,standing.manage⟩

theorem mayDo_iff : MayDo db workspaceId identityId capability ↔
    (currentRules db workspaceId identityId capability).length ≤ 200 ∧ ¬Denies db workspaceId identityId capability [.workspace workspaceId] ∧
      ∃ allow ∈ currentRules db workspaceId identityId capability, allow.scope = .workspace workspaceId ∧
        projectAccessRowAllows (readRule db allow) [.workspace workspaceId] [] (shellOf capability (.workspace workspaceId))
          (historyOf capability (.workspace workspaceId)) := by
  unfold MayDo
  rw [allowedRules_iff]
  simp only [mem_singleton]
end

variable {Principal : Type} {t : Tables Principal} {workspaceId identityId target : String} {capability : Capability}
  {allow : Entitlement} {history : Bool}

theorem mem_currentRules : entitlement ∈ currentRules db workspaceId identityId capability ↔
    entitlement ∈ db.entitlements ∧ entitlement.workspaceId = workspaceId ∧ entitlement.identityId = identityId ∧
      entitlement.capability = capability ∧ entitlement.validity.current db.now ∧ projectAccessCapacitySql db entitlement := by
  unfold currentRules
  simp only [mem_filter,and_eq_true,decide_eq_true_eq,and_assoc]

theorem manages_iff : Entitlement.manages entitlement workspaceId identityId capability effect ↔
    entitlement.workspaceId = workspaceId ∧ entitlement.identityId = identityId ∧ entitlement.capability = capability ∧
      entitlement.effect = effect ∧ entitlement.scope = .workspace workspaceId := by
  unfold Entitlement.manages
  simp only [and_eq_true,decide_eq_true_eq,and_assoc]

theorem unbound_counts (unbound : unboundTerms t allow) : projectAccessCapacitySql t.toDb allow := by
  unfold projectAccessCapacitySql termsLive
  rcases Bool.or_eq_true_iff.mp unbound with unready | none_
  · rw [unready,Bool.true_or,Bool.true_or]
  rw [Option.isNone_iff_eq_none.mp none_]
  exact Bool.or_true _

theorem unbound_allows (unbound : unboundTerms t allow) : projectAccessRowAllows (readRule t.toDb allow) scopes [] shell history := by
  have terms : (readRule t.toDb allow).accessTermsId = none := by
    unfold readRule
    unfold unboundTerms at unbound
    split
    · rename_i ready
      rw [ready,Bool.not_true,Bool.false_or] at unbound
      exact Option.isNone_iff_eq_none.mp unbound
    rfl
  unfold projectAccessRowAllows
  rw [terms]
  rfl

theorem allows_unbound (allows : projectAccessRowAllows (readRule t.toDb allow) [.workspace workspaceId] [] false history) : unboundTerms t allow := by
  unfold unboundTerms
  cases ready : t.termsReady with
  | false => rfl
  | true =>
    have terms : (readRule t.toDb allow).accessTermsId = allow.accessTermsId := by
      unfold readRule
      rw [if_pos ready]
    unfold projectAccessRowAllows at allows
    rw [terms] at allows
    cases bound : allow.accessTermsId with
    | none => rfl
    | some =>
      rw [bound] at allows
      obtain ⟨-,within⟩ := and_eq_true_iff.mp allows
      obtain ⟨_,-,inside⟩ := (Option.any_eq_true _ _).mp within
      obtain ⟨there,-⟩ := and_eq_true_iff.mp inside
      rw [Bool.false_or] at there
      cases mem_singleton.mp (contains_iff_mem.mp there)

theorem deniedWorkspace_iff : deniedWorkspace t workspaceId identityId capability ↔
    Denies t.toDb workspaceId identityId capability [.workspace workspaceId] := by
  unfold deniedWorkspace Denies
  simp only [any_eq_true,and_eq_true,manages_iff,mem_currentRules,mem_singleton]
  constructor
  · intro found
    obtain ⟨deny,mem,⟨workspace,identity,kind,effect,scope⟩,current⟩ := found
    refine ⟨deny,⟨mem,workspace,identity,kind,current,?_⟩,scope,effect⟩
    unfold projectAccessCapacitySql
    rw [decide_eq_true effect,Bool.or_true,Bool.true_or]
  intro found
  obtain ⟨deny,⟨mem,workspace,identity,kind,current,-⟩,scope,effect⟩ := found
  exact ⟨deny,mem,⟨workspace,identity,kind,effect,scope⟩,current⟩

def Grant (t : Tables Principal) (workspaceId identityId : String) (capability : Capability) (allow : Entitlement) : Prop :=
  allow ∈ t.entitlements ∧ Entitlement.manages allow workspaceId identityId capability .allow = true ∧
    allow.validity.current t.now = true ∧ unboundTerms t allow = true

theorem mayDo_grant (few : (currentRules t.toDb workspaceId identityId capability).length ≤ 200)
    (undenied : deniedWorkspace t workspaceId identityId capability = false) (grant : Grant t workspaceId identityId capability allow) :
    MayDo t.toDb workspaceId identityId capability := by
  obtain ⟨mem,manages,current,unbound⟩ := grant
  obtain ⟨workspace,identity,kind,-,scope⟩ := manages_iff.mp manages
  refine mayDo_iff.mpr ⟨few,fun denies => ?_,allow,?_,scope,unbound_allows unbound⟩
  · rw [deniedWorkspace_iff.mpr denies] at undenied
    cases undenied
  exact mem_currentRules.mpr ⟨mem,workspace,identity,kind,current,unbound_counts unbound⟩

theorem mayDo_manage (manage : MayDo t.toDb workspaceId identityId .memberManage) :
    (currentRules t.toDb workspaceId identityId .memberManage).length ≤ 200 ∧ deniedWorkspace t workspaceId identityId .memberManage = false ∧
      ∃ allow, Grant t workspaceId identityId .memberManage allow := by
  obtain ⟨few,undenied,allow,mem,scope,allows⟩ := mayDo_iff.mp manage
  obtain ⟨listed,workspace,identity,kind,current,-⟩ := mem_currentRules.mp mem
  refine ⟨few,?_,allow,listed,manages_iff.mpr ⟨workspace,identity,kind,?_,scope⟩,current,allows_unbound allows⟩
  · rw [Bool.eq_false_iff]
    exact fun denied => undenied (deniedWorkspace_iff.mp denied)
  cases effect : allow.effect with
  | allow => rfl
  | deny => exact absurd ⟨allow,mem,mem_singleton.mpr scope,effect⟩ undenied

theorem unlimited_current (unlimited : Validity.unlimited t validity) : validity.current t.now := by
  unfold Validity.current
  obtain ⟨started,endless⟩ := and_eq_true_iff.mp unlimited
  rw [started,Option.isNone_iff_eq_none.mp endless]
  rfl

theorem undenied_iff : undenied env t workspaceId identityId ↔ Undenied env t.toDb workspaceId identityId := by
  unfold undenied Undenied readDenials deniedByIdentityRows
  cases env.denylistEnabled with
  | false => simp
  | true =>
    simp only [Bool.not_true,Bool.false_or,if_true,and_eq_true,decide_eq_true_eq,Bool.or_eq_false_iff,decide_eq_false_iff_not, length_take]
    have own : ∀ denial ∈ currentDenials t.toDb identityId workspaceId, ∀ workspace scope, denial = .within workspace scope → workspace = workspaceId := by
      intro _ mem _ _ same
      obtain ⟨_,listed,rfl⟩ := mem_map.mp mem
      have held := (mem_filter.mp listed).2
      rw [same] at held
      exact of_decide_eq_true (and_eq_true_iff.mp held).2
    constructor
    · intro holds
      refine ⟨by omega,any_eq_false.mpr fun denial mem => ?_⟩
      have there := mem_of_mem_take mem
      have clear := all_eq_true.mp holds.1 denial there
      cases denial with
      | «global» => cases clear
      | within =>
        have other := of_decide_eq_true clear
        simp [other]
    intro holds
    have few : (currentDenials t.toDb identityId workspaceId).length ≤ 200 := by omega
    refine ⟨all_eq_true.mpr fun denial mem => ?_,few⟩
    have clear := any_eq_false.mp holds.2 denial (by rw [take_of_length_le (by omega)]; exact mem)
    cases denial with
    | «global» => exact absurd rfl clear
    | within workspace scope =>
      rw [own _ mem workspace scope rfl] at clear
      refine decide_eq_true fun same => clear ?_
      rw [same]
      simp

structure Eligible (env : Env) (t : Tables Principal) (workspaceId identityId : String) : Prop where
  resolved : ∃ principal, resolveGlobalIdentity env t.toDb principal = some identityId
  legacy : t.primaryLegacyWorkspaceMembership workspaceId identityId = true

-- And what the guard of a suspension does not ask.
structure Overlooked (env : Env) (t : Tables Principal) (workspaceId identityId : String) : Prop extends Eligible env t workspaceId identityId where
  undenied : undenied env t workspaceId identityId = true
  view : MayDo t.toDb workspaceId identityId .workspaceView
  few : workspaceCapabilityCapacitySql t workspaceId identityId .memberManage = true
  grant : ∃ allow, Grant t workspaceId identityId .memberManage allow

theorem mayDo_unlimited (unlimited : hasUnlimitedWorkspaceCapability env t workspaceId identityId capability) :
    Member t.toDb workspaceId identityId ∧ undenied env t workspaceId identityId ∧ MayDo t.toDb workspaceId identityId capability := by
  unfold hasUnlimitedWorkspaceCapability unlimitedWorkspaceCapabilitySql workspaceCapabilityCapacitySql at unlimited
  simp only [and_eq_true,any_eq_true,decide_eq_true_eq,not_eq_true'] at unlimited
  obtain ⟨⟨membership,listed,⟨⟨⟨⟨⟨⟨⟨workspace,identity⟩,-⟩,-⟩,endless⟩,-⟩,_,mem,⟨⟨manages,current⟩,unbound⟩,-⟩,clear⟩,undenied⟩,few⟩ := unlimited
  refine ⟨?_,clear,mayDo_grant few undenied ⟨mem,manages,unlimited_current current,unbound⟩⟩
  refine any_eq_true.mpr ⟨membership,listed,?_⟩
  unfold Membership.unlimited at endless
  unfold Membership.current
  simp only [and_eq_true] at endless
  rw [decide_eq_true workspace,decide_eq_true identity,endless.1.1,endless.1.2,Option.isNone_iff_eq_none.mp endless.2]
  rfl

theorem standing_unlimited (eligible : Eligible env t workspaceId identityId)
    (authority : hasUnlimitedWorkspaceAuthority env t workspaceId identityId) : Standing env t.toDb workspaceId identityId := by
  obtain ⟨view,manage⟩ := and_eq_true_iff.mp authority
  obtain ⟨mem,clear,viewed⟩ := mayDo_unlimited view
  exact ⟨eligible.resolved,eligible.legacy,mem,undenied_iff.mp clear,viewed,(mayDo_unlimited manage).2.2⟩

def AnotherStands (env : Env) (t : Tables Principal) (workspaceId target : String) : Prop :=
  ∃ membership ∈ t.memberships, acceptedOther t workspaceId target membership = true ∧ Overlooked env t workspaceId membership.identityId

theorem standing_accepted (listed : membership ∈ t.memberships) (accepted : acceptedOther t workspaceId target membership)
    (overlooked : Overlooked env t workspaceId membership.identityId) : Standing env t.toDb workspaceId membership.identityId := by
  unfold acceptedOther mayManage at accepted
  simp only [and_eq_true,decide_eq_true_eq,not_eq_true'] at accepted
  obtain ⟨⟨⟨⟨workspace,-⟩,current⟩,-⟩,-,clear⟩ := accepted
  obtain ⟨_,grant⟩ := overlooked.grant
  refine ⟨overlooked.resolved,overlooked.legacy,?_,undenied_iff.mp overlooked.undenied,overlooked.view,?_⟩
  · refine any_eq_true.mpr ⟨membership,listed,?_⟩
    rw [decide_eq_true workspace,decide_eq_true rfl,current]
    rfl
  exact mayDo_grant (of_decide_eq_true overlooked.few) clear grant

theorem accepted_standing (standing : Standing env t.toDb workspaceId identityId) (other : identityId ≠ target) :
    ∃ membership ∈ t.memberships, acceptedOther t workspaceId target membership ∧ membership.identityId = identityId := by
  obtain ⟨membership,listed,held⟩ := any_eq_true.mp standing.member
  simp only [and_eq_true,decide_eq_true_eq] at held
  obtain ⟨⟨workspace,rfl⟩,current⟩ := held
  obtain ⟨-,clear,allow,mem,manages,live,-⟩ := mayDo_manage standing.manage
  obtain ⟨principal,resolved⟩ := standing.resolved
  have active : t.identityActive membership.identityId := by
    have found : t.resolved principal = some membership.identityId := (Option.filter_eq_some_iff.mp resolved).1
    exact t.known_active principal _ (t.resolved_known principal _ found)
  have held : (t.entitlements.any fun allow => Entitlement.manages allow workspaceId membership.identityId .memberManage .allow &&
      allow.validity.current t.now) := any_eq_true.mpr ⟨allow,mem,and_eq_true_iff.mpr ⟨manages,live⟩⟩
  refine ⟨membership,listed,?_,rfl⟩
  unfold acceptedOther mayManage
  rw [decide_eq_true workspace,decide_eq_true other,current,active,clear,held]
  rfl

theorem overlooked_standing (standing : Standing env t.toDb workspaceId identityId) : Overlooked env t workspaceId identityId := by
  obtain ⟨few,-,grant⟩ := mayDo_manage standing.manage
  exact ⟨⟨standing.resolved,standing.legacy⟩,undenied_iff.mpr standing.undenied,standing.view,decide_eq_true few,grant⟩

theorem another_iff : AnotherStands env t workspaceId target ↔ ∃ identityId ≠ target, Standing env t.toDb workspaceId identityId := by
  constructor
  · intro another
    obtain ⟨membership,listed,accepted,overlooked⟩ := another
    have other : membership.identityId ≠ target := by
      unfold acceptedOther at accepted
      simp only [and_eq_true,decide_eq_true_eq] at accepted
      exact accepted.1.1.1.2
    exact ⟨membership.identityId,other,standing_accepted listed accepted overlooked⟩
  intro found
  obtain ⟨_,other,standing⟩ := found
  obtain ⟨membership,listed,accepted,rfl⟩ := accepted_standing standing other
  exact ⟨membership,listed,accepted,overlooked_standing standing⟩
end LedgeTopOps.PeerAdministrators
