import LedgeTopOps.WorkContextSops

namespace LedgeTopOps.WorkContextSops
open List ScopedAccess KeyedRows Function Bool
open Option (any_some bind_eq_some_iff bind_some filter_some map_eq_some_iff map_some)

-- What the two sides read of one work context: the statement's row, the page's row, and whether the page's filter
-- names the actor.
structure Sides where
  row : AuthoritativeRow
  context : WorkContextRow
  seen : Bool

section
variable (tables : Tables) (staff : Staff)

def seenAs (source : String) (assigned : String → Bool) : Bool :=
  truthy staff.projectAlphaUserId && source = primarySource && staff.projectAlphaUserId.any assigned

def sides (kind : WorkContextKind) (id : String) : Option Sides :=
  match kind with
  | .project => ((find Project.id tables.projects id).filter fun p => p.active && tables.readVisible p.source).map fun p =>
      ⟨authoritativeProject tables staff p,projectRow tables p,seenAs staff p.source (tables.named p)⟩
  | .task => ((find Task.id tables.tasks id).filter fun t => t.active && tables.readVisible t.source).map fun t =>
      ⟨authoritativeTask tables staff t,taskRow tables t,seenAs staff t.source (assignedTo tables.taskAssignments t.id)⟩

structure Agrees (both : Sides) : Prop where
  division : both.row.divisionId ≠ some ""
  seen : both.seen = (both.row.assigned || both.row.owned)
  assigned : (splitIds both.context.assignedStaffIds).contains staff.id = both.row.assigned
  manageAssigned : (splitIds both.context.manageStaffIds).contains staff.id = both.row.manageAssigned
  owned : decide (both.context.ownerId = some staff.id) = both.row.owned

def Alike (kind : WorkContextKind) (id : String) : Prop := ∀ both, sides tables staff kind id = some both → Agrees staff both
end

section
variable {staff : Staff} {permission : Permission}

theorem evaluate_any (context : Option ResourceContext) : evaluatePermission grants ⟨staff.id⟩ permission context =
    (!(grants.any fun g => g.permission = permission && overrideDeny g &&
        (grantMatches g ⟨staff.id⟩ context || (context.any ResourceContext.divisionAuthorityUnknown && g.scope = .division))) &&
      grants.any fun g => g.permission = permission && g.effect = .allow && grantMatches g ⟨staff.id⟩ context) := by
  have denied : (grants.filter (applicable ⟨staff.id⟩ permission context)).any overrideDeny = grants.any fun g => g.permission = permission && overrideDeny g &&
        (grantMatches g ⟨staff.id⟩ context || (context.any ResourceContext.divisionAuthorityUnknown && g.scope = .division)) := by
    rw [any_filter]
    refine congrArg grants.any (funext fun g => ?_)
    unfold applicable overrideDeny
    cases decide (g.permission = permission) <;> cases grantMatches g ⟨staff.id⟩ context <;> cases decide (g.source = .override) <;>
      cases decide (g.effect = .deny) <;> simp
  have given : (grants.filter (applicable ⟨staff.id⟩ permission context)).any (fun g => decide (g.effect = .allow)) =
      grants.any fun g => g.permission = permission && g.effect = .allow && grantMatches g ⟨staff.id⟩ context := by
    rw [any_filter]
    refine congrArg grants.any (funext fun g => ?_)
    unfold applicable
    cases effect : g.effect <;> simp
  unfold evaluatePermission
  dsimp only
  rw [denied,given]
  split
  · rename_i is
    rw [is]
    rfl
  rename_i isnt
  rw [not_eq_true] at isnt
  rw [isnt]
  rfl

theorem evaluate_unscoped : evaluatePermission grants ⟨staff.id⟩ permission none = unscopedPermission grants permission := by
  rw [evaluate_any]
  unfold unscopedPermission
  simp [grantMatches]

theorem evaluate_scoped (division : row.divisionId ≠ some "") (same : context.divisionId = row.divisionId)
    (unknown : context.divisionAuthorityUnknown = row.divisionId.isNone)
    (isAssigned : (context.assignedStaffIds.any fun ids => ids.contains staff.id) = assigned) (owned : decide (context.ownerId = some staff.id) = row.owned) :
    evaluatePermission grants ⟨staff.id⟩ permission (some context) = scopedPermission grants permission row assigned := by
  have given : ∀ g : GrantRow Permission, grantMatches g ⟨staff.id⟩ (some context) = allowedBy row assigned g := by
    intro g
    unfold grantMatches allowedBy
    cases g.scope with
    | global => rfl
    | division =>
      dsimp only
      rw [same]
      cases stored : row.divisionId with
      | none => rfl
      | some division_ =>
        have filled : division_ ≠ "" := fun is => division (by rw [stored,is])
        simp [truthy,filled]
    | assigned => exact isAssigned
    | own => exact owned
  have denied : ∀ g : GrantRow Permission,
      (grantMatches g ⟨staff.id⟩ (some context) || ((some context).any ResourceContext.divisionAuthorityUnknown && g.scope = .division)) = deniedBy row assigned g := by
    intro g
    rw [given]
    unfold allowedBy deniedBy
    rw [any_some,unknown]
    cases g.scope with
    | global => rfl
    | division => cases row.divisionId <;> simp
    | assigned | own => simp
  rw [evaluate_any]
  unfold scopedPermission
  simp only [denied]
  simp only [given]
end

section
variable {authority : Authority} {staff : Staff} {kind : WorkContextKind} {id : String}

def seesAll (authority : Authority) (staff : Staff) (kind : WorkContextKind) : Bool :=
  isAdministrator authority staff.id || (hasLocalGlobalAllow authority staff.id .operationsViewAll &&
    (loadGrants authority staff.id).any fun g => g.permission = viewPermission kind && g.effect = .allow && g.scope = .global)

theorem authoritative_sides : authoritativeContext tables staff kind id = (sides tables staff kind id).map Sides.row := by
  cases kind with
  | project | task =>
    unfold authoritativeContext sides
    rw [Option.map_map]
    rfl

theorem filter_admits (may : unscopedPermission grants (viewPermission kind))
    (administrator explicitAll visible : Bool) (source : String) (assigned : String → Bool) :
    filterAdmits (sqlScope grants (viewPermission kind)) staff administrator explicitAll visible source assigned =
      (visible && (administrator || (explicitAll && grants.any fun g => g.permission = viewPermission kind && g.effect = .allow && g.scope = .global) ||
        seenAs staff source assigned)) := by
  unfold unscopedPermission at may
  rw [and_eq_true,not_eq_true'] at may
  have noDeny : (sqlScope grants (viewPermission kind)).deniedGlobal = false := by
    unfold sqlScope
    dsimp only
    rw [any_filter,any_eq_false]
    intro g mem is
    simp only [denies,and_eq_true] at is
    exact any_eq_false.mp may.1 g mem (by rw [is.1,is.2.1]; rfl)
  have global : (sqlScope grants (viewPermission kind)).global =
      grants.any fun g => g.permission = viewPermission kind && g.effect = .allow && g.scope = .global := by
    unfold sqlScope at noDeny ⊢
    dsimp only at noDeny ⊢
    rw [noDeny,Bool.not_false,Bool.true_and,any_filter]
    refine congrArg grants.any (funext fun g => ?_)
    unfold allows
    rw [Bool.and_assoc]
  unfold filterAdmits seenAs
  rw [noDeny,global]
  generalize (grants.any fun g => g.permission = viewPermission kind && g.effect = .allow && g.scope = .global) = everywhere
  cases administrator <;> cases visible <;> cases truthy staff.projectAlphaUserId <;> cases explicitAll <;> cases everywhere <;> simp

theorem filter_both {α : Type*} (found : Option α) (visible : α → Bool) (admits : α → Bool) (context : α → WorkContextRow) (side : α → Sides)
    (test : Sides → Bool) (row : ∀ x, context x = (side x).context) (same : ∀ x, admits x = (visible x && test (side x))) :
    (found.filter admits).map context = (((found.filter visible).map side).filter test).map Sides.context := by
  cases found with
  | none => rfl
  | some x =>
    rw [filter_some,filter_some,same x]
    cases visible x with
    | false => rfl
    | true =>
      rw [if_pos rfl,map_some,filter_some,Bool.true_and]
      cases test (side x) with
      | false => rfl
      | true => exact congrArg some (row x)

theorem visible_sides : visibleContext tables authority staff (isAdministrator authority staff.id) kind id =
    ((sides tables staff kind id).filter fun both => unscopedPermission (loadGrants authority staff.id) (viewPermission kind) &&
      (seesAll authority staff kind || both.seen)).map Sides.context := by
  unfold visibleContext
  dsimp only
  rw [evaluate_unscoped]
  cases may : unscopedPermission (loadGrants authority staff.id) (viewPermission kind) with
  | false =>
    cases sides tables staff kind id <;> rfl
  | true =>
    cases kind with
    | project => exact filter_both _ _ _ _ _ _ (fun _ => rfl) fun p => filter_admits may _ _ _ _ _
    | task => exact filter_both _ _ _ _ _ _ (fun _ => rfl) fun t => filter_admits may _ _ _ _ _

theorem decision_sides : visibleDecision tables authority staff kind id = (sides tables staff kind id).any fun both =>
    unscopedPermission (loadGrants authority staff.id) (viewPermission kind) && (seesAll authority staff kind || both.seen) &&
      (mayView authority staff both.context && mayAssign authority staff both.context) := by
  unfold visibleDecision
  rw [visible_sides]
  cases sides tables staff kind id with
  | none => rfl
  | some both =>
    rw [filter_some,any_some]
    cases unscopedPermission (loadGrants authority staff.id) (viewPermission kind) && (seesAll authority staff kind || both.seen) <;> rfl

theorem allowed_sides (row : AuthoritativeRow) : allowed authority staff kind row =
    (unscopedPermission (loadGrants authority staff.id) (viewPermission kind) && (seesAll authority staff kind || (row.assigned || row.owned)) &&
      scopedPermission (loadGrants authority staff.id) .sopsView row row.assigned) := by
  unfold allowed seesAll
  simp only [Bool.or_assoc]

theorem guard_sides (stored : find Staff.id tables.staff staff.id = some staff) : guardInserts tables authority staff.id kind id =
    (sides tables staff kind id).any fun both => allowed authority staff kind both.row &&
      scopedPermission (loadGrants authority staff.id) .sopsAssign both.row both.row.manageAssigned := by
  unfold guardInserts
  rw [stored,any_some,authoritative_sides,Option.any_map]

section
variable (is : sides tables staff kind id = some both)
include is

theorem sides_division : both.context.divisionId = both.row.divisionId := by
  cases kind with
  | project =>
    obtain ⟨p,_,rfl⟩ := map_eq_some_iff.mp is
    rfl
  | task =>
    obtain ⟨t,_,rfl⟩ := map_eq_some_iff.mp is
    rfl

theorem view_scoped (agrees : Agrees staff both) :
    mayView authority staff both.context = scopedPermission (loadGrants authority staff.id) .sopsView both.row both.row.assigned :=
  evaluate_scoped agrees.division (sides_division is) (congrArg Option.isNone (sides_division is)) agrees.assigned agrees.owned

theorem assign_scoped (agrees : Agrees staff both) :
    mayAssign authority staff both.context = scopedPermission (loadGrants authority staff.id) .sopsAssign both.row both.row.manageAssigned :=
  evaluate_scoped agrees.division (sides_division is) (congrArg Option.isNone (sides_division is)) agrees.manageAssigned agrees.owned
end
end

structure Repeats (tables : Tables) (authority : Authority) (staff : Staff) (kind : WorkContextKind) (id : String) : Prop where
  guard : guardInserts tables authority staff.id kind id = visibleDecision tables authority staff kind id
  released : ∀ library slug revisionId,
    (readAuthorizedWorkContextSopRevision tables authority library staff.id kind id slug revisionId).isSome = true →
      (visibleContext tables authority staff (isAdministrator authority staff.id) kind id).any (mayView authority staff) = true

section
variable {staff : Staff} {kind : WorkContextKind} {id : String}

theorem alike_repeats (stored : find Staff.id tables.staff staff.id = some staff) (alike : Alike tables staff kind id) :
    Repeats tables authority staff kind id := by
  constructor
  · rw [guard_sides stored,decision_sides]
    cases is : sides tables staff kind id with
    | none => rfl
    | some both =>
      have agrees := alike both is
      rw [any_some,any_some,allowed_sides,view_scoped is agrees,assign_scoped is agrees,agrees.seen,Bool.and_assoc]
  intro library slug revisionId released
  unfold readAuthorizedWorkContextSopRevision at released
  split at released
  · cases released
  rw [stored,bind_some,authoritative_sides] at released
  rw [visible_sides]
  cases is : sides tables staff kind id with
  | none =>
    rw [is] at released
    cases released
  | some both =>
    have agrees := alike both is
    rw [is,map_some,bind_some] at released
    split at released
    · rename_i may
      rw [allowed_sides,and_eq_true,←agrees.seen] at may
      rw [filter_some,if_pos may.1,map_some,any_some,view_scoped is agrees]
      exact may.2
    cases released

def granting (staffId : String) (given : List (Permission × PermissionScope × Option String)) : Authority :=
  ⟨[],[],[],given.map fun g => ⟨staffId,g.1,.allow,g.2.1,g.2.2⟩⟩

def asGrant (g : Permission × PermissionScope × Option String) : GrantRow Permission := ⟨g.1,.allow,g.2.1,g.2.2,.override⟩

theorem load_granting (staffId : String) (given : List (Permission × PermissionScope × Option String)) :
    loadGrants (granting staffId given) staffId = given.map asGrant := by
  unfold loadGrants granting
  simp [roleGrants,filter_map,comp_def,asGrant]

section
variable (given : List (Permission × PermissionScope × Option String)) (permission : Permission)
include given permission

theorem scoped_granting (row : AuthoritativeRow) (assigned : Bool) :
    scopedPermission (given.map asGrant) permission row assigned = given.any fun g => g.1 = permission && allowedBy row assigned (asGrant g) := by
  have never : given.any (fun _ => false) = false := any_eq_false.mpr fun _ _ => false_ne_true
  unfold scopedPermission
  simp [any_map,comp_def,asGrant,overrideDeny,never]
  rfl

theorem evaluate_granting (context : Option ResourceContext) : evaluatePermission (given.map asGrant) ⟨staff.id⟩ permission context =
      given.any fun g => g.1 = permission && grantMatches (asGrant g) ⟨staff.id⟩ context := by
  have never : given.any (fun _ => false) = false := any_eq_false.mpr fun _ _ => false_ne_true
  rw [evaluate_any]
  simp [any_map,comp_def,asGrant,overrideDeny,never]
  rfl
end

-- Under grants that only allow and let the actor see every context, the two sides ask the
-- same of the grants of the two permissions on SOPs.
def viewing (kind : WorkContextKind) (scope : PermissionScope) (division : Option String) : List (Permission × PermissionScope × Option String) :=
  [(viewPermission kind,.global,none),(.operationsViewAll,.global,none),(.sopsAssign,.global,none),(.sopsView,scope,division)]

def assigning (kind : WorkContextKind) : List (Permission × PermissionScope × Option String) :=
  [(viewPermission kind,.global,none),(.operationsViewAll,.global,none),(.sopsView,.global,none),(.sopsAssign,.assigned,none)]

def seeing (kind : WorkContextKind) : List (Permission × PermissionScope × Option String) :=
  [(viewPermission kind,.global,none),(.sopsView,.global,none),(.sopsAssign,.global,none)]

section
variable (stored : find Staff.id tables.staff staff.id = some staff) (is : sides tables staff kind id = some both)
include stored is

theorem viewing_same (scope : PermissionScope) (division : Option String)
    (repeats : Repeats tables (granting staff.id (viewing kind scope division)) staff kind id) :
    allowedBy both.row both.row.assigned (asGrant (.sopsView,scope,division)) =
      grantMatches (asGrant (.sopsView,scope,division)) ⟨staff.id⟩ (some (contextResource both.context)) := by
  have same := repeats.guard
  rw [guard_sides stored,decision_sides,is,any_some,any_some,allowed_sides] at same
  unfold mayView mayAssign seesAll unscopedPermission at same
  rw [load_granting,evaluate_granting,evaluate_granting,scoped_granting,scoped_granting] at same
  cases kind <;> simpa [viewing,viewPermission,asGrant,overrideDeny,allowedBy,grantMatches,hasLocalGlobalAllow,granting] using same

theorem assigning_same (repeats : Repeats tables (granting staff.id (assigning kind)) staff kind id) :
    both.row.manageAssigned = (splitIds both.context.manageStaffIds).contains staff.id := by
  have same := repeats.guard
  rw [guard_sides stored,decision_sides,is,any_some,any_some,allowed_sides] at same
  unfold mayView mayAssign seesAll unscopedPermission at same
  rw [load_granting,evaluate_granting,evaluate_granting,scoped_granting,scoped_granting] at same
  cases kind <;> simpa [assigning,viewPermission,asGrant,overrideDeny,allowedBy,grantMatches,hasLocalGlobalAllow,granting,contextManageResource] using same

theorem seeing_same (repeats : Repeats tables (granting staff.id (seeing kind)) staff kind id) : (both.row.assigned || both.row.owned) = both.seen := by
  have same := repeats.guard
  rw [guard_sides stored,decision_sides,is,any_some,any_some,allowed_sides] at same
  unfold mayView mayAssign seesAll unscopedPermission at same
  rw [load_granting,evaluate_granting,evaluate_granting,scoped_granting,scoped_granting] at same
  cases kind <;> simpa [seeing,viewPermission,asGrant,overrideDeny,allowedBy,grantMatches,hasLocalGlobalAllow,granting,isAdministrator] using same

theorem repeats_agrees (repeats : ∀ authority, Repeats tables authority staff kind id) : Agrees staff both where
  division := fun empty => by
    have same := viewing_same stored is .division (some "") (repeats _)
    simp [allowedBy,grantMatches,asGrant,contextResource,sides_division is,empty,truthy] at same
  seen := (seeing_same stored is (repeats _)).symm
  assigned := (viewing_same stored is .assigned none (repeats _)).symm
  manageAssigned := (assigning_same stored is (repeats _)).symm
  owned := (viewing_same stored is .own none (repeats _)).symm
end
end

-- What the identifiers of the tables are: filled, the staff's without a comma, and at most one
-- staff user for each Project Alpha user.
structure WellFormed (tables : Tables) : Prop where
  staffIds : Keyed Staff.id tables.staff
  filled : ∀ s ∈ tables.staff, s.id ≠ "" ∧ ',' ∉ s.id.toList
  users : ∀ s ∈ tables.staff, ∀ other ∈ tables.staff, ∀ user, s.projectAlphaUserId = some user → other.projectAlphaUserId = some user → s = other
  userIds : ∀ s ∈ tables.staff, s.projectAlphaUserId ≠ some ""
  divisionIds : ∀ d ∈ tables.divisions, d.id ≠ ""

section
variable {tables : Tables} (wellFormed : WellFormed tables) (principal : Principal tables)
include wellFormed

theorem split_concat (chosen : String → Bool) :
    splitIds (tables.groupConcat chosen) = (tables.staff.filter fun s => s.projectAlphaUserId.any chosen).map Staff.id := by
  unfold Tables.groupConcat
  split
  · rename_i none
    rw [none]
    rfl
  rename_i listed
  have among : ∀ s ∈ tables.staff.filter (fun s => s.projectAlphaUserId.any chosen), s ∈ tables.staff := fun s mem => (mem_filter.mp mem).1
  generalize tables.staff.filter (fun s => s.projectAlphaUserId.any chosen) = chosen_ at listed among
  have parts : splitOn ',' ([','].intercalate (chosen_.map (·.id.toList))) = chosen_.map (·.id.toList) := by
    refine splitOn_intercalate ',' (fun text mem => ?_) fun nil => listed (map_eq_nil_iff.mp nil)
    obtain ⟨s,there,rfl⟩ := mem_map.mp mem
    exact (wellFormed.filled s (among s there)).2
  show ((splitOn ',' _).filter _).map String.ofList = _
  rw [parts,filter_eq_self.mpr fun text mem => ?_,map_map]
  · exact map_congr_left fun s _ => String.ofList_toList
  · obtain ⟨s,there,rfl⟩ := mem_map.mp mem
    exact decide_eq_true fun none => (wellFormed.filled s (among s there)).1 (String.toList_eq_nil_iff.mp none)

theorem contains_concat (chosen : String → Bool) :
    (splitIds (tables.groupConcat chosen)).contains principal.staff.id = principal.staff.projectAlphaUserId.any chosen := by
  rw [split_concat wellFormed,Bool.eq_iff_iff,contains_iff_mem,mem_map]
  obtain ⟨mem,_⟩ := find_some principal.stored
  constructor
  · rintro ⟨s,there,same⟩
    obtain ⟨listed,isChosen⟩ := mem_filter.mp there
    cases wellFormed.staffIds.unique listed mem same
    exact isChosen
  intro isChosen
  exact ⟨principal.staff,mem_filter.mpr ⟨mem,isChosen⟩,rfl⟩

theorem owner_of (user : Option String) : decide (tables.ownerOf user = some principal.staff.id) =
    principal.staff.projectAlphaUserId.any fun own => user = some own := by
  obtain ⟨mem,_⟩ := find_some principal.stored
  rw [Bool.eq_iff_iff,decide_eq_true_eq]
  unfold Tables.ownerOf
  constructor
  · intro owner
    obtain ⟨_,is,owner⟩ := bind_eq_some_iff.mp owner
    obtain ⟨s,found,same⟩ := map_eq_some_iff.mp owner
    have met := find?_some found
    have user_ := of_decide_eq_true met
    cases wellFormed.staffIds.unique (mem_of_find?_eq_some found) mem same
    rw [user_,is]
    exact decide_eq_true rfl
  intro own
  obtain ⟨named,is,same⟩ := (Option.any_eq_true _ _).mp own
  rw [of_decide_eq_true same,bind_some]
  cases found : tables.staff.find? fun s => s.projectAlphaUserId = some named with
  | none => exact absurd (decide_eq_true is) (find?_eq_none.mp found principal.staff mem)
  | some s =>
    have met := find?_some found
    cases wellFormed.users s (mem_of_find?_eq_some found) principal.staff mem named (of_decide_eq_true met) is
    rfl

theorem division_filled {id division : String} (is : tables.activeDivision id = some division) : division ≠ "" := by
  obtain ⟨d,found,rfl⟩ := map_eq_some_iff.mp is
  exact wellFormed.divisionIds d (mem_of_find?_eq_some found)

theorem seen_relates (source : String) (test : String → Bool) : seenAs principal.staff source test = relates principal.staff source test := by
  obtain ⟨mem,_⟩ := find_some principal.stored
  unfold seenAs relates
  cases user : principal.staff.projectAlphaUserId with
  | none => simp
  | some user_ =>
    have filled : user_ ≠ "" := fun empty => wellFormed.userIds principal.staff mem (by rw [user,empty])
    simp [truthy,filled]

-- The actor is nothing to a context of another source, and to one of the primary source a
-- creator only if assigned as well.
def RelatedAlike (staff : Staff) (source : String) (assigned owned : String → Bool) : Prop :=
  (source = primarySource ∧ (staff.projectAlphaUserId.any owned = true → staff.projectAlphaUserId.any assigned = true)) ∨
    (staff.projectAlphaUserId.any assigned = false ∧ staff.projectAlphaUserId.any owned = false)

omit wellFormed in
theorem relates_alike (staff : Staff) (source : String) (assigned manages owned : String → Bool)
    (within : staff.projectAlphaUserId.any manages → staff.projectAlphaUserId.any assigned) :
    (relates staff source assigned = (relates staff source assigned || relates staff source owned) ∧
      staff.projectAlphaUserId.any assigned = relates staff source assigned ∧ staff.projectAlphaUserId.any manages = relates staff source manages ∧
      staff.projectAlphaUserId.any owned = relates staff source owned) ↔ RelatedAlike staff source assigned owned := by
  unfold relates RelatedAlike
  by_cases primary : source = primarySource
  · rw [decide_eq_true primary]
    cases staff.projectAlphaUserId.any assigned <;> cases staff.projectAlphaUserId.any owned <;> simp [primary]
  cases first : staff.projectAlphaUserId.any assigned <;> cases second : staff.projectAlphaUserId.any manages <;>
    cases staff.projectAlphaUserId.any owned <;> simp_all

theorem row_agrees (id : String) (division : Option String) (source : String) (assigned manages : String → Bool) (user : Option String)
    (filled : division ≠ some "") (within : principal.staff.projectAlphaUserId.any manages → principal.staff.projectAlphaUserId.any assigned) :
    Agrees principal.staff ⟨⟨id,division,relates principal.staff source fun own => user = some own,relates principal.staff source assigned,
        relates principal.staff source manages⟩,⟨id,division,tables.ownerOf user,tables.groupConcat assigned,tables.groupConcat manages⟩,
        seenAs principal.staff source assigned⟩ ↔ RelatedAlike principal.staff source assigned fun own => user = some own := by
  rw [←relates_alike principal.staff source assigned manages _ within]
  constructor
  · rintro ⟨_,seen,assigned,manages,owned⟩
    exact ⟨(seen_relates wellFormed principal _ _).symm.trans seen,(contains_concat wellFormed principal _).symm.trans assigned,
      (contains_concat wellFormed principal _).symm.trans manages,(owner_of wellFormed principal _).symm.trans owned⟩
  rintro ⟨seen,assigned,manages,owned⟩
  exact ⟨filled,(seen_relates wellFormed principal _ _).trans seen,(contains_concat wellFormed principal _).trans assigned,
    (contains_concat wellFormed principal _).trans manages,(owner_of wellFormed principal _).trans owned⟩

theorem project_agrees (p : Project) : Agrees principal.staff
      ⟨authoritativeProject tables principal.staff p,projectRow tables p,seenAs principal.staff p.source (tables.named p)⟩ ↔
    RelatedAlike principal.staff p.source (tables.named p) fun user => p.managerUserId = some user := by
  refine row_agrees wellFormed principal _ _ _ _ _ _ (fun empty => ?_) fun manages => ?_
  · obtain ⟨_,_,active⟩ := bind_eq_some_iff.mp empty
    exact division_filled wellFormed active rfl
  obtain ⟨user,is,manages⟩ := (Option.any_eq_true _ _).mp manages
  refine (Option.any_eq_true _ _).mpr ⟨user,is,?_⟩
  unfold Tables.named
  rw [manages]
  rfl

theorem task_agrees (t : Task) : Agrees principal.staff
      ⟨authoritativeTask tables principal.staff t,taskRow tables t,seenAs principal.staff t.source (assignedTo tables.taskAssignments t.id)⟩ ↔
    RelatedAlike principal.staff t.source (assignedTo tables.taskAssignments t.id) fun user => t.createdByUserId = some user := by
  refine row_agrees wellFormed principal _ _ _ _ _ _ (fun empty => ?_) id
  obtain ⟨_,_,active⟩ := bind_eq_some_iff.mp empty
  exact division_filled wellFormed active rfl

omit wellFormed in
variable (tables) in
def ContextAlike (staff : Staff) (kind : WorkContextKind) (id : String) : Prop :=
  match kind with
  | .project => ∀ p, ((find Project.id tables.projects id).filter fun p => p.active && tables.readVisible p.source) = some p →
      RelatedAlike staff p.source (tables.named p) fun user => p.managerUserId = some user
  | .task => ∀ t, ((find Task.id tables.tasks id).filter fun t => t.active && tables.readVisible t.source) = some t →
      RelatedAlike staff t.source (assignedTo tables.taskAssignments t.id) fun user => t.createdByUserId = some user

theorem alike_context (kind : WorkContextKind) (id : String) : Alike tables principal.staff kind id ↔ ContextAlike tables principal.staff kind id := by
  cases kind with
  | project =>
    refine ⟨fun alike p found => (project_agrees wellFormed principal p).mp (alike _ (map_eq_some_iff.mpr ⟨p,found,rfl⟩)), fun alike both is => ?_⟩
    obtain ⟨p,found,rfl⟩ := map_eq_some_iff.mp is
    exact (project_agrees wellFormed principal p).mpr (alike p found)
  | task =>
    refine ⟨fun alike t found => (task_agrees wellFormed principal t).mp (alike _ (map_eq_some_iff.mpr ⟨t,found,rfl⟩)), fun alike both is => ?_⟩
    obtain ⟨t,found,rfl⟩ := map_eq_some_iff.mp is
    exact (task_agrees wellFormed principal t).mpr (alike t found)
end

-- Under every grant alike exactly where the two rows agree, and with identifiers as issued exactly where the actor is
-- related to the context by its primary source alone.
theorem repeats_iff (tables : Tables) (principal : Principal tables) (kind : WorkContextKind) (id : String) :
    ((∀ authority, Repeats tables authority principal.staff kind id) ↔ Alike tables principal.staff kind id) ∧
      (WellFormed tables → (Alike tables principal.staff kind id ↔ ContextAlike tables principal.staff kind id)) :=
  ⟨⟨fun repeats _ is => repeats_agrees principal.stored is repeats,fun alike _ => alike_repeats principal.stored alike⟩,
    fun wellFormed => alike_context wellFormed principal kind id⟩

def assignedTables : Tables where
  staff := [⟨"staff-1",some "user-1"⟩]
  connectors := [⟨primarySource,true⟩]
  projects := []
  tasks := [⟨"task-1","project-1",primarySource,some "user-1",true⟩]
  operations := []
  projectAssignments := []
  operationAssignments := []
  taskAssignments := [⟨"task-1","user-1",true⟩]
  heads := []
  mappings := []
  divisions := []

def assignedPrincipal : Principal assignedTables := ⟨⟨"staff-1",some "user-1"⟩,rfl⟩

theorem repeats_iff_example : (sides assignedTables assignedPrincipal.staff .task "task-1").isSome = true ∧
    ∀ authority, Repeats assignedTables authority assignedPrincipal.staff .task "task-1" :=
  have wellFormed : WellFormed assignedTables := {
    staffIds := nodup_singleton _
    filled := by decide
    users := fun s member other there _ _ _ => (mem_singleton.mp member).trans (mem_singleton.mp there).symm
    userIds := by decide
    divisionIds := fun d member => (not_mem_nil member).elim }
  have alike : ContextAlike assignedTables assignedPrincipal.staff .task "task-1" := fun t found => by
    cases found
    exact .inl ⟨rfl,fun _ => rfl⟩
  ⟨rfl,(repeats_iff assignedTables assignedPrincipal .task "task-1").1.mpr
    (((repeats_iff assignedTables assignedPrincipal .task "task-1").2 wellFormed).mpr alike)⟩

-- A task of the primary source that the actor created unassigned, and a project of another source whose manager has
-- the actor's identifier.
def divergingTables : Tables where
  staff := [⟨"staff-1",some "user-1"⟩]
  connectors := [⟨primarySource,true⟩,⟨"project-alpha:second",true⟩]
  projects := [⟨"project-1","project-alpha:second",some "user-1",true⟩]
  tasks := [⟨"task-1","project-1",primarySource,some "user-1",true⟩]
  operations := []
  projectAssignments := []
  operationAssignments := []
  taskAssignments := []
  heads := []
  mappings := []
  divisions := []

def divergingPrincipal : Principal divergingTables := ⟨⟨"staff-1",some "user-1"⟩,rfl⟩

theorem diverging_wellFormed : WellFormed divergingTables where
  staffIds := nodup_singleton _
  filled := by decide
  users s mem other there _ _ _ := (mem_singleton.mp mem).trans (mem_singleton.mp there).symm
  userIds := by decide
  divisionIds d mem := (not_mem_nil mem).elim

def divergingLibrary : Library :=
  ⟨[(.task,"task-1")],[⟨.task,"task-1","sop-1","revision-1"⟩],[⟨"sop-1","preflight"⟩],[⟨"revision-1","sop-1",true⟩]⟩

theorem decision_diverges : WellFormed divergingTables ∧ (guardInserts divergingTables (granting "staff-1" (seeing .task)) "staff-1" .task "task-1" = true ∧
      visibleContext divergingTables (granting "staff-1" (seeing .task)) divergingPrincipal.staff false .task "task-1" = none ∧
      readAuthorizedWorkContextSopRevision divergingTables (granting "staff-1" (seeing .task)) divergingLibrary "staff-1" .task "task-1" "preflight" "revision-1" =
        some ⟨"revision-1","sop-1",true⟩) ∧
    (guardInserts divergingTables (granting "staff-1" (viewing .project .own none)) "staff-1" .project "project-1" = false ∧
      visibleDecision divergingTables (granting "staff-1" (viewing .project .own none)) divergingPrincipal.staff .project "project-1" = true) ∧
    ¬ ∀ (tables : Tables) (authority : Authority) (principal : Principal tables) (kind : WorkContextKind) (id : String), WellFormed tables →
      Repeats tables authority principal.staff kind id := by
  have inserted : guardInserts divergingTables (granting "staff-1" (seeing .task)) "staff-1" .task "task-1" = true := by decide
  have refused : visibleDecision divergingTables (granting "staff-1" (seeing .task)) divergingPrincipal.staff .task "task-1" = false := by decide
  refine ⟨diverging_wellFormed,⟨inserted,by decide,by decide⟩,⟨by decide,by decide⟩,fun claimed => ?_⟩
  have same := (claimed divergingTables (granting "staff-1" (seeing .task)) divergingPrincipal .task "task-1" diverging_wellFormed).guard
  exact false_ne_true (refused.symm.trans (same.symm.trans inserted))
end LedgeTopOps.WorkContextSops
