import LedgeTopOps.WorkspaceManagers

namespace LedgeTopOps.PeerAdministrators
open List PortalAuthority Bool Function

section
variable {Principal : Type} {t next : Tables Principal}

def Kin (t next : Tables Principal) : Prop := ∃ memberships entitlements versions commands,
  next = {t with memberships := memberships, entitlements := entitlements, entitlementVersion := versions, commands := commands}

theorem Kin.refl (t : Tables Principal) : Kin t t := ⟨_,_,_,_,rfl⟩

theorem Kin.trans (first : Kin t next) (second : Kin next last) : Kin t last := by
  obtain ⟨_,_,_,_,rfl⟩ := first
  obtain ⟨memberships,entitlements,versions,commands,rfl⟩ := second
  exact ⟨memberships,entitlements,versions,commands,rfl⟩

theorem Kin.symm (kin : Kin t next) : Kin next t := by
  obtain ⟨_,_,_,_,rfl⟩ := kin
  exact ⟨t.memberships,t.entitlements,t.entitlementVersion,t.commands,rfl⟩

theorem site_kin (kin : Kin t next) (site : Site env t.toDb workspaceId) : Site env next.toDb workspaceId := by
  obtain ⟨_,_,_,_,rfl⟩ := kin
  exact ⟨site.enabled,site.free,site.workspace⟩

theorem eligible_kin (kin : Kin t next) (eligible : Eligible env t workspaceId identityId) : Eligible env next workspaceId identityId := by
  obtain ⟨_,_,_,_,rfl⟩ := kin
  exact ⟨eligible.resolved,eligible.legacy⟩

def members (t : Tables Principal) (workspaceId identityId : String) : List Membership :=
  t.memberships.filter fun membership => decide (membership.workspaceId = workspaceId) && decide (membership.identityId = identityId)

def grants (t : Tables Principal) (workspaceId identityId : String) : List Entitlement :=
  t.entitlements.filter fun entitlement => decide (entitlement.workspaceId = workspaceId) && decide (entitlement.identityId = identityId)

theorem currentRules_grants : currentRules t.toDb workspaceId identityId capability = (grants t workspaceId identityId).filter fun entitlement =>
    decide (entitlement.capability = capability) && entitlement.validity.current t.now && projectAccessCapacitySql t.toDb entitlement := by
  unfold currentRules grants
  rw [filter_filter]
  refine filter_congr fun entitlement _ => ?_
  ac_rfl

theorem mayDo_frame (kin : Kin t next) (same : grants next workspaceId identityId = grants t workspaceId identityId)
    (may : MayDo t.toDb workspaceId identityId capability) : MayDo next.toDb workspaceId identityId capability := by
  have rules : currentRules next.toDb workspaceId identityId capability = currentRules t.toDb workspaceId identityId capability := by
    rw [currentRules_grants,currentRules_grants,same]
    obtain ⟨_,_,_,_,rfl⟩ := kin
    rfl
  unfold MayDo readRules at may ⊢
  rw [rules]
  obtain ⟨_,_,_,_,rfl⟩ := kin
  exact may

theorem member_members : Member t.toDb workspaceId identityId ↔ (members t workspaceId identityId).any (fun membership => membership.current t.now) := by
  unfold Member members
  rw [any_filter]

theorem standing_frame (kin : Kin t next) (sameMembers : members next workspaceId identityId = members t workspaceId identityId)
    (sameGrants : grants next workspaceId identityId = grants t workspaceId identityId) (standing : Standing env t.toDb workspaceId identityId) :
    Standing env next.toDb workspaceId identityId := by
  have view := mayDo_frame kin sameGrants standing.view
  have manage := mayDo_frame kin sameGrants standing.manage
  have mem : Member next.toDb workspaceId identityId := by
    rw [member_members,sameMembers]
    obtain ⟨_,_,_,_,rfl⟩ := kin
    exact member_members.mp standing.member
  obtain ⟨_,_,_,_,rfl⟩ := kin
  exact ⟨standing.resolved,standing.legacy,mem,standing.undenied,view,manage⟩

theorem filter_map_others {ρ : Type} {rows : List ρ} {own : ρ → Bool} {change : ρ → ρ} (kept : ∀ row, own (change row) = own row)
    (others : ∀ row, own row → change row = row) : (rows.map change).filter own = rows.filter own := by
  rw [filter_map,show own ∘ change = own from funext kept]
  refine (map_congr_left fun row mem => ?_).trans (map_id _)
  exact others row (mem_filter.mp mem).2
end

section
variable {Principal : Type} {workspaceId identityId place target : String}

theorem suspendBatch_kin : Kin t (suspendBatch t place target) := by
  unfold suspendBatch
  split
  · exact ⟨_,_,_,_,rfl⟩
  exact Kin.refl t

theorem suspendMember_other (apart : ¬(membership.workspaceId = place ∧ membership.identityId = target)) :
    suspendMember place target membership = membership := if_neg fun held => apart ⟨held.1,held.2.1⟩

theorem suspendGrant_other (apart : ¬(entitlement.workspaceId = place ∧ entitlement.identityId = target)) :
    suspendGrant place target entitlement = entitlement := if_neg fun held => apart ⟨held.1,held.2.1⟩

section
variable (apart : ¬(workspaceId = place ∧ identityId = target))
include apart

theorem suspended_members : members (suspendBatch t place target) workspaceId identityId = members t workspaceId identityId := by
  unfold suspendBatch
  split
  · refine filter_map_others (fun row => ?_) fun row own => ?_
    · unfold suspendMember
      split
      · rfl
      rfl
    · simp only [and_eq_true,decide_eq_true_eq] at own
      refine suspendMember_other fun same => apart ?_
      rw [←own.1,←own.2]
      exact same
  rfl

theorem suspended_grants : grants (suspendBatch t place target) workspaceId identityId = grants t workspaceId identityId := by
  unfold suspendBatch
  split
  · refine filter_map_others (fun row => ?_) fun row own => ?_
    · unfold suspendGrant
      split
      · rfl
      rfl
    · simp only [and_eq_true,decide_eq_true_eq] at own
      refine suspendGrant_other fun same => apart ?_
      rw [←own.1,←own.2]
      exact same
  rfl

theorem suspended_standing : Standing env (suspendBatch t place target).toDb workspaceId identityId ↔ Standing env t.toDb workspaceId identityId :=
  ⟨standing_frame suspendBatch_kin.symm (suspended_members apart).symm (suspended_grants apart).symm,
    standing_frame suspendBatch_kin (suspended_members apart) (suspended_grants apart)⟩
end

theorem suspended_member (goes : suspends t workspaceId target) : ¬Member (suspendBatch t workspaceId target).toDb workspaceId target := by
  intro mem
  unfold suspendBatch at mem
  rw [if_pos goes] at mem
  obtain ⟨row,listed,held⟩ := any_eq_true.mp mem
  obtain ⟨old,-,rfl⟩ := mem_map.mp listed
  simp only [and_eq_true,decide_eq_true_eq] at held
  unfold suspendMember at held
  split at held
  · cases held.2
  rename_i other
  obtain ⟨⟨place,name⟩,current⟩ := held
  unfold Membership.current at current
  simp only [and_eq_true,decide_eq_true_eq] at current
  exact other ⟨place,name,current.1.1⟩

theorem suspended_iff (managed : Managed env t.toDb workspaceId) (goes : suspends t workspaceId target) :
    Managed env (suspendBatch t workspaceId target).toDb workspaceId ↔ AnotherStands env t workspaceId target := by
  rw [another_iff]
  constructor
  · intro after
    obtain ⟨identityId,manager⟩ := after
    have standing := (manager_iff.mp manager).2
    have other : identityId ≠ target := by
      intro same
      rw [same] at standing
      exact suspended_member goes standing.member
    exact ⟨identityId,other,(suspended_standing fun same => other same.2).mp standing⟩
  intro found
  obtain ⟨identityId,other,standing⟩ := found
  obtain ⟨_,manager⟩ := managed
  have kin : Kin t (suspendBatch t workspaceId target) := suspendBatch_kin
  have site := site_kin kin (manager_iff.mp manager).1
  exact ⟨identityId,manager_iff.mpr ⟨site,(suspended_standing fun same => other same.2).mpr standing⟩⟩
end

variable {Principal : Type} {t next : Tables Principal} {workspaceId identityId place target entitlementId : String} {input : Input} {allow entitlement : Entitlement}

def changedGrants (t : Tables Principal) (place target entitlementId : String) (manager : Bool) : List Entitlement :=
  (if manager then t.entitlements else t.entitlements.map (revokeGrant place target))++[newGrant t place target entitlementId manager]

theorem changeBatch_some (applied : changeBatch env t plan place target input key entitlementId = some next) :
    changeGuard env t plan place target input ∧ Kin t next ∧ next.memberships = t.memberships ∧
      next.entitlements = changedGrants t place target entitlementId input.manager := by
  obtain ⟨held,same⟩ := Option.ite_none_right_eq_some.mp applied
  simp only [and_eq_true] at held
  cases same
  exact ⟨held.1.1,⟨_,_,_,_,rfl⟩,rfl,rfl⟩

theorem revokeGrant_kept (other : ¬(Entitlement.manages entitlement place target .memberManage .allow && decide (entitlement.source = .operations) &&
    decide (entitlement.validity.status = .active) && !entitlement.validity.revoked)) : revokeGrant place target entitlement = entitlement :=
  if_neg other

theorem revokeGrant_cases (place target : String) (entitlement : Entitlement) : revokeGrant place target entitlement = entitlement ∨
    Entitlement.manages entitlement place target .memberManage .allow ∧
      revokeGrant place target entitlement = {entitlement with validity := {entitlement.validity with status := .revoked,revoked := true}} := by
  unfold revokeGrant
  split
  · rename_i held
    simp only [and_eq_true] at held
    exact .inr ⟨held.1.1.1,rfl⟩
  exact .inl rfl

theorem changed_grants (same : next.entitlements = changedGrants t place target entitlementId input.manager)
    (apart : ¬(workspaceId = place ∧ identityId = target)) : grants next workspaceId identityId = grants t workspaceId identityId := by
  have fresh : [newGrant t place target entitlementId input.manager].filter (fun entitlement => decide (entitlement.workspaceId = workspaceId) &&
      decide (entitlement.identityId = identityId)) = [] := by
    refine filter_eq_nil_iff.mpr fun row mem held => ?_
    rw [mem_singleton.mp mem] at held
    simp only [and_eq_true,decide_eq_true_eq] at held
    exact apart ⟨held.1.symm,held.2.symm⟩
  unfold grants
  rw [same]
  unfold changedGrants
  rw [filter_append,fresh,append_nil]
  split
  · rfl
  refine filter_map_others (fun row => ?_) fun row own => ?_
  · rcases revokeGrant_cases place target row with kept | ⟨-,revoked⟩
    · rw [kept]
    · rw [revoked]
  rcases revokeGrant_cases place target row with kept | ⟨manages,-⟩
  · exact kept
  obtain ⟨there,name,-⟩ := manages_iff.mp manages
  simp only [and_eq_true,decide_eq_true_eq] at own
  exact absurd ⟨own.1.symm.trans there,own.2.symm.trans name⟩ apart

theorem changed_standing (applied : changeBatch env t plan place target input key entitlementId = some next)
    (apart : ¬(workspaceId = place ∧ identityId = target)) :
    Standing env.toEnv next.toDb workspaceId identityId ↔ Standing env.toEnv t.toDb workspaceId identityId := by
  obtain ⟨-,kin,sameMembers,sameGrants⟩ := changeBatch_some applied
  have own : members next workspaceId identityId = members t workspaceId identityId := by
    unfold members
    rw [sameMembers]
  exact ⟨standing_frame kin.symm own.symm (changed_grants sameGrants apart).symm,standing_frame kin own (changed_grants sameGrants apart)⟩

theorem promoted_other (guarded : changeGuard env t plan place target input) (promotes : input.manager) : plan.actorId ≠ target := by
  intro same
  unfold changeGuard at guarded
  rw [if_pos promotes,same] at guarded
  simp only [and_eq_true,not_eq_true'] at guarded
  obtain ⟨⟨⟨⟨authority,-⟩,-⟩,-⟩,absent,-⟩ := guarded
  obtain ⟨-,manage⟩ := and_eq_true_iff.mp authority
  unfold hasUnlimitedWorkspaceCapability unlimitedWorkspaceCapabilitySql at manage
  simp only [and_eq_true,any_eq_true] at manage
  obtain ⟨⟨_,-,⟨⟨-,allow,mem,held,-⟩,-⟩,-⟩,-⟩ := manage
  exact any_eq_false.mp absent allow mem (by rw [held.1.1,held.1.2,held.2]; decide)

theorem guard_authority (guarded : changeGuard env t plan place target input) : hasUnlimitedWorkspaceAuthority env.toEnv t place plan.actorId := by
  unfold changeGuard at guarded
  simp only [and_eq_true] at guarded
  exact guarded.1.1.1.1

def KeepsGrant (t : Tables Principal) (workspaceId target : String) : Prop :=
  ∃ allow, Grant t workspaceId target .memberManage allow ∧ allow.source ≠ .operations

theorem current_parts {validity : Validity} (current : validity.current now) : validity.status = .active ∧ validity.revoked = false := by
  unfold Validity.current at current
  simp only [and_eq_true,decide_eq_true_eq,not_eq_true'] at current
  exact ⟨current.1.1.1,current.1.1.2⟩

section
variable (same : next.entitlements = changedGrants t workspaceId target entitlementId false) (kin : Kin t next)
include same kin

theorem demoted_view : currentRules next.toDb workspaceId target .workspaceView = currentRules t.toDb workspaceId target .workspaceView := by
  unfold currentRules
  rw [same]
  obtain ⟨_,_,_,_,rfl⟩ := kin
  unfold changedGrants
  rw [if_neg Bool.false_ne_true,filter_append]
  have fresh : [newGrant t workspaceId target entitlementId false].filter (fun entitlement => decide (entitlement.workspaceId = workspaceId) &&
      decide (entitlement.identityId = target) && decide (entitlement.capability = .workspaceView) && entitlement.validity.current t.now &&
      projectAccessCapacitySql t.toDb entitlement) = [] := by
    refine filter_eq_nil_iff.mpr fun row mem held => ?_
    rw [mem_singleton.mp mem] at held
    simp only [and_eq_true] at held
    cases held.1.2
  refine (congrArg (_++·) fresh).trans ((append_nil _).trans (filter_map_others (fun row => ?_) fun row own => ?_))
  · rcases revokeGrant_cases workspaceId target row with kept | ⟨manages,revoked⟩
    · rw [kept]
    · obtain ⟨-,-,kind,-⟩ := manages_iff.mp manages
      rw [revoked]
      have other : decide (Capability.memberManage = .workspaceView) = false := rfl
      rw [kind,other,Bool.and_false,Bool.false_and,Bool.false_and,Bool.false_and,Bool.false_and]
  rcases revokeGrant_cases workspaceId target row with kept | ⟨manages,-⟩
  · exact kept
  · obtain ⟨-,-,kind,-⟩ := manages_iff.mp manages
    simp only [and_eq_true,decide_eq_true_eq] at own
    cases own.1.1.2.symm.trans kind

theorem demoted_few : (currentRules next.toDb workspaceId target .memberManage).length ≤ (currentRules t.toDb workspaceId target .memberManage).length := by
  unfold currentRules
  rw [same]
  obtain ⟨_,_,_,_,rfl⟩ := kin
  unfold changedGrants
  rw [if_neg Bool.false_ne_true,filter_append,length_append,←countP_eq_length_filter,←countP_eq_length_filter, ← countP_eq_length_filter,countP_map]
  have fresh : countP (fun entitlement => decide (entitlement.workspaceId = workspaceId) && decide (entitlement.identityId = target) &&
      decide (entitlement.capability = .memberManage) && entitlement.validity.current t.now && projectAccessCapacitySql t.toDb entitlement)
      [newGrant t workspaceId target entitlementId false] = 0 := by
    refine countP_eq_zero.mpr fun row mem held => ?_
    rw [mem_singleton.mp mem] at held
    simp only [and_eq_true] at held
    cases held.1.2
  refine (congrArg (_ + ·) fresh).le.trans ?_
  refine countP_mono_left fun row _ held => ?_
  rcases revokeGrant_cases workspaceId target row with kept | ⟨-,revoked⟩
  · simp only [comp_apply,kept] at held
    exact held
  simp only [comp_apply,revoked,and_eq_true] at held
  cases (current_parts held.1.2).1

theorem demoted_denied
    (undenied : deniedWorkspace t workspaceId target .memberManage = false) : deniedWorkspace next workspaceId target .memberManage = false := by
  rw [eq_false_iff] at undenied ⊢
  intro denied
  apply undenied
  obtain ⟨_,mem,held⟩ := any_eq_true.mp denied
  rw [same] at mem
  obtain ⟨_,_,_,_,rfl⟩ := kin
  unfold changedGrants at mem
  rcases mem_append.mp mem with old | new
  · obtain ⟨deny,listed,rfl⟩ := mem_map.mp old
    rcases revokeGrant_cases workspaceId target deny with kept | ⟨manages,revoked⟩
    · rw [kept] at held
      exact any_eq_true.mpr ⟨deny,listed,held⟩
    rw [revoked] at held
    cases (current_parts (and_eq_true_iff.mp held).2).1
  rw [mem_singleton.mp new] at held
  cases (manages_iff.mp (and_eq_true_iff.mp held).1).2.2.2.1

theorem demoted_grant : (∃ allow, Grant next workspaceId target .memberManage allow) ↔ KeepsGrant t workspaceId target := by
  obtain ⟨_,_,_,_,rfl⟩ := kin
  dsimp only at same
  constructor
  · intro found
    obtain ⟨_,mem,manages,current,unbound⟩ := found
    rw [same] at mem
    unfold changedGrants at mem
    rcases mem_append.mp mem with old | new
    · obtain ⟨row,listed,rfl⟩ := mem_map.mp old
      rcases revokeGrant_cases workspaceId target row with kept | ⟨-,revoked⟩
      · rw [kept] at manages current unbound
        refine ⟨row,⟨listed,manages,current,unbound⟩,fun operations => ?_⟩
        have parts := current_parts current
        have changed : revokeGrant workspaceId target row = {row with validity := {row.validity with status := .revoked,revoked := true}} :=
          if_pos (by rw [manages,operations,parts.1,parts.2]; rfl)
        have revoked := congrArg (fun entitlement => entitlement.validity.revoked) (kept.symm.trans changed)
        rw [parts.2] at revoked
        cases revoked
      rw [revoked] at current
      cases (current_parts current).1
    rw [mem_singleton.mp new] at current
    cases (current_parts current).1
  intro found
  obtain ⟨allow,⟨mem,manages,current,unbound⟩,other⟩ := found
  have kept : revokeGrant workspaceId target allow = allow := by
    refine revokeGrant_kept fun held => other ?_
    simp only [and_eq_true,decide_eq_true_eq] at held
    exact held.1.1.2
  refine ⟨allow,?_,manages,current,unbound⟩
  rw [same]
  exact mem_append_left _ (mem_map.mpr ⟨allow,mem,kept⟩)
end

theorem demoted_iff (manager : Manager env.toEnv t.toDb workspaceId target) (demotes : input.manager = false)
    (applied : changeBatch env t plan workspaceId target input key entitlementId = some next) :
    Managed env.toEnv next.toDb workspaceId ↔ AnotherStands env.toEnv t workspaceId target ∨ KeepsGrant t workspaceId target := by
  obtain ⟨site,standing⟩ := manager_iff.mp manager
  obtain ⟨-,kin,sameMembers,sameGrants⟩ := changeBatch_some applied
  rw [demotes] at sameGrants
  rw [another_iff]
  constructor
  · intro after
    obtain ⟨identityId,left⟩ := after
    have still := (manager_iff.mp left).2
    by_cases other : identityId = target
    · rw [other] at still
      exact .inr ((demoted_grant sameGrants kin).mp (mayDo_manage still.manage).2.2)
    exact .inl ⟨identityId,other,(changed_standing applied fun same => other same.2).mp still⟩
  intro either
  rcases either with ⟨identityId,other,still⟩ | keeps
  · exact ⟨identityId,manager_iff.mpr ⟨site_kin kin site,(changed_standing applied fun same => other same.2).mpr still⟩⟩
  obtain ⟨few,undenied,-⟩ := mayDo_manage standing.manage
  obtain ⟨_,grant⟩ := (demoted_grant sameGrants kin).mpr keeps
  have manage : MayDo next.toDb workspaceId target .memberManage :=
    mayDo_grant ((demoted_few sameGrants kin).trans few) (demoted_denied sameGrants kin undenied) grant
  have view : MayDo next.toDb workspaceId target .workspaceView := by
    have rules := demoted_view sameGrants kin
    have old := standing.view
    unfold MayDo readRules at old ⊢
    rw [rules]
    obtain ⟨_,_,_,_,rfl⟩ := kin
    exact old
  have mem : Member next.toDb workspaceId target := by
    have old := standing.member
    obtain ⟨_,_,_,_,rfl⟩ := kin
    dsimp only at sameMembers
    rw [sameMembers]
    exact old
  refine ⟨target,manager_iff.mpr ⟨site_kin kin site,?_⟩⟩
  obtain ⟨_,_,_,_,rfl⟩ := kin
  exact ⟨standing.resolved,standing.legacy,mem,standing.undenied,view,manage⟩
end LedgeTopOps.PeerAdministrators
