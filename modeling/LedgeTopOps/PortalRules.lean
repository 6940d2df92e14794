import LedgeTopOps.PortalAuthority

namespace LedgeTopOps.PortalAuthority
open List

section
variable {Principal : Type}

theorem allowedLoop_iff : allowedLoop scopes expired shell history rules allowed ↔ (∀ rule ∈ rules, rule.scope ∈ scopes → rule.effect ≠ .deny) ∧ (allowed ∨
      ∃ rule ∈ rules, rule.scope ∈ scopes ∧ projectAccessRowAllows rule scopes expired shell history) := by
  induction rules generalizing allowed with
  | nil => simp [allowedLoop]
  | cons rule _ ih =>
    unfold allowedLoop
    by_cases inside : rule.scope ∈ scopes
    · rw [if_neg (by simp [inside])]
      by_cases deny : rule.effect = .deny
      · rw [if_pos deny]
        simp [inside,deny]
      rw [if_neg deny,ih]
      simp [inside,deny,or_assoc]
    rw [if_pos (by simp [inside]),ih]
    simp [inside]

theorem readRules_length : 200 < (readRules db workspaceId identityId capability).length ↔
    200 < (currentRules db workspaceId identityId capability).length := by
  unfold readRules
  rw [length_map,length_take]
  omega

theorem readRule_scope (db : Db Principal) (entitlement : Entitlement) : (readRule db entitlement).scope = entitlement.scope := by
  unfold readRule
  split
  · rfl
  rfl

theorem readRule_effect (db : Db Principal) (entitlement : Entitlement) : (readRule db entitlement).effect = entitlement.effect := by
  unfold readRule
  split
  · rfl
  rfl

def Denies (db : Db Principal) (workspaceId identityId : String) (capability : Capability) (scopes : List Scope) : Prop :=
  ∃ entitlement ∈ currentRules db workspaceId identityId capability, entitlement.scope ∈ scopes ∧ entitlement.effect = .deny

theorem allowedRules_iff : allowedByEntitlementRows (readRules db workspaceId identityId capability) scopes expired shell history ↔
    (currentRules db workspaceId identityId capability).length ≤ 200 ∧ ¬Denies db workspaceId identityId capability scopes ∧
      ∃ entitlement ∈ currentRules db workspaceId identityId capability, entitlement.scope ∈ scopes ∧
        projectAccessRowAllows (readRule db entitlement) scopes expired shell history := by
  unfold allowedByEntitlementRows
  by_cases many : 200 < (currentRules db workspaceId identityId capability).length
  · rw [if_pos (readRules_length.mpr many)]
    refine ⟨nofun,fun holds => ?_⟩
    have bound := holds.1
    omega
  rw [if_neg fun over_ => many (readRules_length.mp over_),allowedLoop_iff]
  have whole : readRules db workspaceId identityId capability = (currentRules db workspaceId identityId capability).map (readRule db) := by
    unfold readRules
    rw [take_of_length_le (by omega)]
  rw [whole]
  refine ⟨fun holds => ⟨by omega,?_,?_⟩,fun holds => ⟨?_,.inr ?_⟩⟩
  · intro denies
    obtain ⟨entitlement,mem,inside,deny⟩ := denies
    refine holds.1 (readRule db entitlement) (mem_map.mpr ⟨entitlement,mem,rfl⟩) ?_ ?_
    · rw [readRule_scope]
      exact inside
    rw [readRule_effect]
    exact deny
  · obtain ⟨_,mem,inside,allows⟩ := holds.2.resolve_left nofun
    obtain ⟨entitlement,there,rfl⟩ := mem_map.mp mem
    rw [readRule_scope] at inside
    exact ⟨entitlement,there,inside,allows⟩
  · intro _ mem inside deny
    obtain ⟨entitlement,there,rfl⟩ := mem_map.mp mem
    rw [readRule_scope] at inside
    rw [readRule_effect] at deny
    exact holds.2.1 ⟨entitlement,there,inside,deny⟩
  obtain ⟨entitlement,mem,inside,allows⟩ := holds.2.2
  refine ⟨readRule db entitlement,mem_map.mpr ⟨entitlement,mem,rfl⟩,?_,allows⟩
  rw [readRule_scope]
  exact inside

theorem rowAllows_congr (scopesSame : ∀ scope, scope ∈ scopes ↔ scope ∈ others) (expiredSame : ∀ id, id ∈ expired ↔ id ∈ past) :
    projectAccessRowAllows rule scopes expired shell history = projectAccessRowAllows rule others past shell history := by
  have empty : expired.isEmpty = past.isEmpty := by
    rw [Bool.eq_iff_iff,List.isEmpty_iff,List.isEmpty_iff,eq_nil_iff_forall_not_mem,eq_nil_iff_forall_not_mem]
    exact forall_congr' fun id => not_congr (expiredSame id)
  have inside : ∀ project, scopes.contains (.entity .project project) = others.contains (.entity .project project) := by
    intro _
    rw [Bool.eq_iff_iff,contains_iff_mem,contains_iff_mem]
    exact scopesSame _
  have every : ∀ project, (expired.all fun id => decide (id = project)) = past.all fun id => decide (id = project) := by
    intro _
    rw [Bool.eq_iff_iff,all_eq_true,all_eq_true]
    exact forall_congr' fun id => imp_congr (expiredSame id) Iff.rfl
  unfold projectAccessRowAllows
  simp only [empty,inside,every]

theorem allowed_congr (scopesSame : ∀ scope, scope ∈ scopes ↔ scope ∈ others) (expiredSame : ∀ id, id ∈ expired ↔ id ∈ past) :
    allowedByEntitlementRows rules scopes expired shell history = allowedByEntitlementRows rules others past shell history := by
  unfold allowedByEntitlementRows
  split
  · rfl
  rw [Bool.eq_iff_iff,allowedLoop_iff,allowedLoop_iff]
  simp only [scopesSame,rowAllows_congr scopesSame expiredSame]

theorem denied_congr (scopesSame : ∀ scope, scope ∈ scopes ↔ scope ∈ others) :
    deniedByIdentityRows denials workspaceId scopes = deniedByIdentityRows denials workspaceId others := by
  have inside : ∀ scope, scopes.contains scope = others.contains scope := by
    intro scope
    rw [Bool.eq_iff_iff,contains_iff_mem,contains_iff_mem]
    exact scopesSame scope
  unfold deniedByIdentityRows
  simp only [inside]
end

variable {Principal : Type}

theorem expired_iff {id : String} (relations : env.relations) (active : db.activeDirectory workspaceId = some directory) :
    id ∈ readExpiredScopeProjects env db workspaceId scopes ↔
      .entity .project id ∈ scopes ∧ (directory.lifecycle id).bind (Lifecycle.retained db.now) ≠ some true := by
  have named : id ∈ scopes.filterMap Scope.project? ↔ .entity .project id ∈ scopes := by
    rw [mem_filterMap]
    constructor
    · intro there
      obtain ⟨_,mem,same⟩ := there
      unfold Scope.project? at same
      split at same
      · cases same
        exact mem
      cases same
    exact fun mem => ⟨_,mem,rfl⟩
  obtain ⟨_,stored,kept⟩ := Option.bind_eq_some_iff.mp active
  obtain ⟨_,-,same⟩ := Option.map_eq_some_iff.mp kept
  unfold readExpiredScopeProjects
  rw [if_pos relations,mem_filter,named,stored,Option.any_some,same]
  refine and_congr_right fun _ => ?_
  cases directory.lifecycle id with
  | none | some lifecycle => simp
end LedgeTopOps.PortalAuthority
