import LedgeTopOps.SqlPredicates

namespace LedgeTopOps.ScopedAccess
open List SqlPredicates
open Bool (and_eq_true)

inductive PermissionScope where
  | global | division | assigned | own
  deriving DecidableEq

inductive Effect where
  | allow | deny
  deriving DecidableEq

inductive Source where
  | role | override
  deriving DecidableEq

-- The permission keys are a fixed list of strings that nothing here inspects.
variable {Permission : Type*} [DecidableEq Permission]

structure GrantRow (Permission : Type*) where
  permission : Permission
  effect : Effect
  scope : PermissionScope
  divisionId : Option String
  source : Source

structure StaffPrincipal where
  id : String

-- null and undefined are both none: every use tests for a value.
structure ResourceContext where
  divisionId : Option String := none
  divisionAuthorityUnknown : Bool := false
  assignedStaffIds : Option (List String) := none
  ownerId : Option String := none

def truthy (text : Option String) : Bool := text.any fun value => decide (value ≠ "")

def grantMatches (grant : GrantRow Permission) (principal : StaffPrincipal) : Option ResourceContext → Bool
  | none => true
  | some context => match grant.scope with
    | .global => true
    | .division => truthy context.divisionId && decide (grant.divisionId = context.divisionId)
    | .assigned => context.assignedStaffIds.any fun staff => staff.contains principal.id
    | .own => decide (context.ownerId = some principal.id)

def overrideDeny (grant : GrantRow Permission) : Bool :=
  decide (grant.source = .override) && decide (grant.effect = .deny)

def applicable (principal : StaffPrincipal) (permission : Permission) (context : Option ResourceContext)
    (grant : GrantRow Permission) : Bool :=
  decide (grant.permission = permission) && (grantMatches grant principal context
    || (context.any ResourceContext.divisionAuthorityUnknown && decide (grant.scope = .division)
      && decide (grant.source = .override) && decide (grant.effect = .deny)))

def evaluatePermission (grants : List (GrantRow Permission)) (principal : StaffPrincipal) (permission : Permission)
    (context : Option ResourceContext) : Bool :=
  let applied := grants.filter (applicable principal permission context)
  if applied.any overrideDeny then false else applied.any fun grant => decide (grant.effect = .allow)

structure SqlScope where
  global : Bool
  divisions : List String
  (assigned own : Bool)
  deniedDivisions : List String
  deniedGlobal : Bool

def allows (scope : PermissionScope) (row : GrantRow Permission) : Bool :=
  decide (row.effect = .allow) && decide (row.scope = scope)

def denies (scope : PermissionScope) (row : GrantRow Permission) : Bool :=
  overrideDeny row && decide (row.scope = scope)

-- [...new Set(rows.filter(… && row.divisionId).map(row => row.divisionId))]
def divisionIds (rows : List (GrantRow Permission)) : List String :=
  ((rows.filter fun row => truthy row.divisionId).filterMap GrantRow.divisionId).eraseDups

def sqlScope (grants : List (GrantRow Permission)) (permission : Permission) : SqlScope :=
  let rows := grants.filter fun row => decide (row.permission = permission)
  let deniedGlobal := rows.any (denies .global)
  { global := !deniedGlobal && rows.any (allows .global)
    divisions := divisionIds (rows.filter (allows .division))
    assigned := rows.any (allows .assigned)
    own := rows.any (allows .own)
    deniedDivisions := divisionIds (rows.filter (denies .division))
    deniedGlobal }

inductive Column where
  | divisionId | createdBy

def columnText (table : String) : Column → String
  | .divisionId => table++".division_id"
  | .createdBy => table++".created_by"

def allowedParts (scope : SqlScope) (principal : StaffPrincipal) (assignmentSql : Option String) :
    List (Predicate Column) × List String :=
  let global := optional scope.global (.constant true) []
  let divisions := optional (!scope.divisions.isEmpty) (.isIn .divisionId scope.divisions.length) scope.divisions
  let assigned := optional (scope.assigned && truthy assignmentSql) (.fragment (assignmentSql.getD "")) [principal.id]
  let own := optional scope.own (.equal .createdBy) [principal.id]
  (global.1++divisions.1++assigned.1++own.1,global.2++divisions.2++assigned.2++own.2)

def buildScopedWhere (scope : SqlScope) (principal : StaffPrincipal) (assignmentSql : Option String) :
    Predicate Column × List String :=
  if scope.deniedGlobal then (.constant false,[])
  else match allowedParts scope principal assignmentSql with
    | ([],_) => (.constant false,[])
    | (first :: rest,values) =>
      let allowed := Predicate.group (.disjunction first rest)
      if scope.deniedDivisions.isEmpty then (allowed,values)
      else (.group (.both allowed (.isNotIn .divisionId scope.deniedDivisions.length)),
        values++scope.deniedDivisions)

example : (buildScopedWhere ⟨false,["chippewa","madison"],false,true,["eau"],false⟩ ⟨"kollins"⟩ none).1.text
    (columnText "o") = "((o.division_id IN (?,?) OR o.created_by=?) AND o.division_id NOT IN (?))" := by decide

-- A row of the filtered table: its two columns, and the staff assigned to it.
structure Resource where
  (divisionId createdBy : Option String)
  assignedStaffIds : List String

def Resource.context (resource : Resource) : ResourceContext where
  divisionId := resource.divisionId
  ownerId := resource.createdBy
  assignedStaffIds := some resource.assignedStaffIds

-- The row as the database sees it; fragment is what the caller's assignment SQL
-- selects for a bound staff id.
def Resource.row (resource : Resource) (fragment : String → String → Ternary) : Row Column String where
  column
    | .divisionId => resource.divisionId
    | .createdBy => resource.createdBy
  fragment := fragment

theorem truthy_iff (text : Option String) : truthy text ↔ ∃ value, text = some value ∧ value ≠ "" := by
  simp [truthy,Option.any_eq_true]

omit [DecidableEq Permission] in
theorem mem_divisionIds (rows : List (GrantRow Permission)) (id : String) : id ∈ divisionIds rows ↔ id ≠ "" ∧ ∃ row ∈ rows, row.divisionId = some id := by
  simp only [divisionIds,mem_eraseDups,mem_filterMap,mem_filter,truthy_iff]
  constructor
  · rintro ⟨row,⟨mem,_,known,nonempty⟩,same⟩
    cases known.symm.trans same
    exact ⟨nonempty,row,mem,same⟩
  rintro ⟨nonempty,row,mem,same⟩
  exact ⟨row,⟨mem,id,same,nonempty⟩,same⟩

section
variable (grants : List (GrantRow Permission)) (principal : StaffPrincipal) (permission : Permission)
  (resource : Resource)

def AllowedAt (scope : PermissionScope) : Prop :=
  ∃ grant ∈ grants, grant.permission = permission ∧ allows scope grant = true ∧
    grantMatches grant principal (some resource.context) = true

def DeniedAt (scope : PermissionScope) : Prop :=
  ∃ grant ∈ grants, grant.permission = permission ∧ denies scope grant = true ∧
    grantMatches grant principal (some resource.context) = true

def Allowed : Prop := ∃ scope, AllowedAt grants principal permission resource scope

def DivisionDenied : Prop :=
  ∃ grant ∈ grants, grant.permission = permission ∧ denies .division grant = true ∧ truthy grant.divisionId = true

theorem evaluate_iff : evaluatePermission grants principal permission (some resource.context) ↔
    Allowed grants principal permission resource ∧ ¬∃ scope, DeniedAt grants principal permission resource scope := by
  have applies : ∀ grant, applicable principal permission (some resource.context) grant ↔
      grant.permission = permission ∧ grantMatches grant principal (some resource.context) := by
    intro _; simp [applicable,Resource.context]
  have denied : ((grants.filter (applicable principal permission (some resource.context))).any overrideDeny) ↔
      ∃ scope, DeniedAt grants principal permission resource scope := by
    simp only [any_eq_true,mem_filter,applies,DeniedAt,denies,and_eq_true,decide_eq_true_eq]
    constructor
    · rintro ⟨grant,⟨mem,same,matched⟩,deny⟩
      exact ⟨grant.scope,grant,mem,same,⟨deny,rfl⟩,matched⟩
    rintro ⟨_,grant,mem,same,⟨deny,rfl⟩,matched⟩
    exact ⟨grant,⟨mem,same,matched⟩,deny⟩
  have allowed : ((grants.filter (applicable principal permission (some resource.context))).any
      fun grant => decide (grant.effect = .allow)) ↔ Allowed grants principal permission resource := by
    simp only [any_eq_true,mem_filter,applies,Allowed,AllowedAt,allows,and_eq_true,decide_eq_true_eq]
    constructor
    · rintro ⟨grant,⟨mem,same,matched⟩,effect⟩
      exact ⟨grant.scope,grant,mem,same,⟨effect,rfl⟩,matched⟩
    rintro ⟨_,grant,mem,same,⟨effect,rfl⟩,matched⟩
    exact ⟨grant,⟨mem,same,matched⟩,effect⟩
  simp only [evaluatePermission]
  rw [←denied,←allowed]
  split
  · rename_i deny; simp [deny]
  rename_i deny; simp [deny]

omit [DecidableEq Permission] in
theorem allows_scope (allow : allows scope grant) : grant.scope = scope := of_decide_eq_true (Bool.and_eq_true_iff.mp allow).2

omit [DecidableEq Permission] in
theorem denies_scope (deny : denies scope grant) : grant.scope = scope := of_decide_eq_true (Bool.and_eq_true_iff.mp deny).2

-- One flag of the SQL scope, with what the resource must be for its grants to match.
theorem flag_iff {holds : Prop} (matched : ∀ grant, test grant → (grantMatches grant principal (some resource.context) ↔ holds)) :
    ((grants.filter fun row => decide (row.permission = permission)).any test ∧ holds) ↔ ∃ grant ∈ grants, grant.permission = permission ∧
      test grant = true ∧ grantMatches grant principal (some resource.context) = true := by
  simp only [any_eq_true,mem_filter,decide_eq_true_eq]
  constructor
  · rintro ⟨⟨grant,⟨mem,same⟩,passes⟩,here⟩
    exact ⟨grant,mem,same,passes,(matched grant passes).mpr here⟩
  rintro ⟨grant,mem,same,passes,here⟩
  exact ⟨⟨grant,⟨mem,same⟩,passes⟩,(matched grant passes).mp here⟩

theorem deniedGlobal_iff : (sqlScope grants permission).deniedGlobal ↔ DeniedAt grants principal permission resource .global :=
  (and_iff_left trivial).symm.trans (flag_iff grants principal permission resource fun _ deny => by simp [grantMatches,denies_scope deny])

omit [DecidableEq Permission] in
theorem divisionMatches_iff (scope : grant.scope = .division) : grantMatches grant principal (some resource.context) ↔
      ∃ id, id ≠ "" ∧ resource.divisionId = some id ∧ grant.divisionId = some id := by
  simp only [grantMatches,scope,Resource.context,and_eq_true,truthy_iff]
  constructor
  · rintro ⟨⟨id,known,nonempty⟩,same⟩
    exact ⟨id,nonempty,known,(of_decide_eq_true same).trans known⟩
  rintro ⟨id,nonempty,known,same⟩
  exact ⟨⟨id,known,nonempty⟩,decide_eq_true (same.trans known.symm)⟩

theorem mem_deniedDivisions (id : String) : id ∈ (sqlScope grants permission).deniedDivisions ↔
    id ≠ "" ∧ ∃ grant ∈ grants, grant.permission = permission ∧ denies .division grant ∧ grant.divisionId = some id := by
  simp only [sqlScope,mem_divisionIds,mem_filter,decide_eq_true_eq,and_assoc]

theorem mem_divisions (id : String) : id ∈ (sqlScope grants permission).divisions ↔
    id ≠ "" ∧ ∃ grant ∈ grants, grant.permission = permission ∧ allows .division grant ∧ grant.divisionId = some id := by
  simp only [sqlScope,mem_divisionIds,mem_filter,decide_eq_true_eq,and_assoc]

theorem deniedDivisions_empty : (sqlScope grants permission).deniedDivisions = [] ↔ ¬DivisionDenied grants permission := by
  rw [eq_nil_iff_forall_not_mem]
  simp only [mem_deniedDivisions,DivisionDenied,truthy_iff]
  constructor
  · rintro absent ⟨grant,mem,same,deny,id,known,nonempty⟩
    exact absent id ⟨nonempty,grant,mem,same,deny,known⟩
  rintro absent id ⟨nonempty,grant,mem,same,deny,known⟩
  exact absent ⟨grant,mem,same,deny,id,known,nonempty⟩

theorem deniedDivision_iff : DeniedAt grants principal permission resource .division ↔
    ∃ id, resource.divisionId = some id ∧ id ∈ (sqlScope grants permission).deniedDivisions := by
  simp only [DeniedAt,mem_deniedDivisions]
  constructor
  · rintro ⟨grant,mem,same,deny,matched⟩
    obtain ⟨id,nonempty,known,named⟩ := (divisionMatches_iff principal resource (denies_scope deny)).mp matched
    exact ⟨id,known,nonempty,grant,mem,same,deny,named⟩
  rintro ⟨id,known,nonempty,grant,mem,same,deny,named⟩
  exact ⟨grant,mem,same,deny,(divisionMatches_iff principal resource (denies_scope deny)).mpr ⟨id,nonempty,known,named⟩⟩

theorem allowedGlobal_iff (open' : ¬DeniedAt grants principal permission resource .global) :
    (sqlScope grants permission).global ↔ AllowedAt grants principal permission resource .global := by
  have notDenied : (sqlScope grants permission).deniedGlobal = false := by
    rw [←Bool.not_eq_true,deniedGlobal_iff grants principal permission resource]; exact open'
  simp only [sqlScope] at notDenied
  simp only [sqlScope,notDenied,Bool.not_false,Bool.true_and]
  exact (and_iff_left trivial).symm.trans (flag_iff grants principal permission resource fun _ allow => by simp [grantMatches,allows_scope allow])

theorem allowedDivision_iff : (∃ id, resource.divisionId = some id ∧ id ∈ (sqlScope grants permission).divisions) ↔
    AllowedAt grants principal permission resource .division := by
  simp only [AllowedAt,mem_divisions]
  constructor
  · rintro ⟨id,known,nonempty,grant,mem,same,allow,named⟩
    exact ⟨grant,mem,same,allow,(divisionMatches_iff principal resource (allows_scope allow)).mpr ⟨id,nonempty,known,named⟩⟩
  rintro ⟨grant,mem,same,allow,matched⟩
  obtain ⟨id,nonempty,known,named⟩ := (divisionMatches_iff principal resource (allows_scope allow)).mp matched
  exact ⟨id,known,nonempty,grant,mem,same,allow,named⟩

theorem allowedAssigned_iff : ((sqlScope grants permission).assigned ∧ resource.assignedStaffIds.contains principal.id) ↔
    AllowedAt grants principal permission resource .assigned :=
  flag_iff grants principal permission resource fun _ allow => by simp [grantMatches,allows_scope allow,Resource.context]

theorem allowedOwn_iff : ((sqlScope grants permission).own ∧ resource.createdBy = some principal.id) ↔ AllowedAt grants principal permission resource .own :=
  flag_iff grants principal permission resource fun _ allow => by
    simp only [grantMatches,allows_scope allow]
    exact decide_eq_true_iff

theorem exists_scope {holds : PermissionScope → Prop} : (∃ scope, holds scope) ↔ holds .global ∨ holds .division ∨ holds .assigned ∨ holds .own := by
  constructor
  · rintro ⟨scope,here⟩
    cases scope with
    | global => exact .inl here
    | division => exact .inr (.inl here)
    | assigned => exact .inr (.inr (.inl here))
    | own => exact .inr (.inr (.inr here))
  rintro (here | here | here | here)
  all_goals exact ⟨_,here⟩
end

def ScopeAllows (scope : SqlScope) (principal : StaffPrincipal) (sql : String) (row : Row Column String) : Prop :=
  scope.global = true ∨ (∃ id, row.column .divisionId = some id ∧ id ∈ scope.divisions) ∨
    (scope.assigned = true ∧ row.fragment sql principal.id = .yes) ∨
    (scope.own = true ∧ row.column .createdBy = some principal.id)

section
variable (scope : SqlScope) (principal : StaffPrincipal) (supplied : sql ≠ "") (row : Row Column String)
include scope principal supplied row

theorem allowedParts_alternatives : ∃ holds, Alternatives row (allowedParts scope principal (some sql)).1 (allowedParts scope principal (some sql)).2
      holds ∧ (holds ↔ ScopeAllows scope principal sql row) := by
  have constant : Binds row _ _ _ := binds_constant true
  have divided : Binds row _ _ _ := binds_isIn Column.divisionId scope.divisions
  have fragment : Binds row _ _ _ := binds_fragment sql principal.id
  have created : Binds row _ _ _ := binds_equal Column.createdBy principal.id
  obtain ⟨g,globalParts,global⟩ := constant.optional scope.global
  obtain ⟨d,divisionParts,divisions⟩ := divided.optional (!scope.divisions.isEmpty)
  obtain ⟨a,assignedParts,assigned⟩ := fragment.optional (scope.assigned && truthy (some sql))
  obtain ⟨o,ownParts,own⟩ := created.optional scope.own
  have listed : (!scope.divisions.isEmpty) ∧ member (row.column .divisionId) scope.divisions = .yes ↔
      ∃ id, row.column .divisionId = some id ∧ id ∈ scope.divisions := by
    rw [member_yes]
    constructor
    · exact fun both => both.2
    rintro ⟨id,known,present⟩
    refine ⟨?_,id,known,present⟩
    cases shape : scope.divisions with
    | nil => rw [shape] at present; cases present
    | cons => rfl
  have nonempty : truthy (some sql) := by simpa [truthy] using supplied
  refine ⟨((g ∨ d) ∨ a) ∨ o,((globalParts.append divisionParts).append assignedParts).append ownParts,?_⟩
  rw [global,divisions,assigned,own,listed,nonempty,or_assoc,or_assoc]
  simp [ScopeAllows,Ternary.ofBool]

theorem buildScopedWhere_satisfied : (buildScopedWhere scope principal (some sql)).1.satisfied row (buildScopedWhere scope principal (some sql)).2 ↔
      scope.deniedGlobal = false ∧ ScopeAllows scope principal sql row ∧ (scope.deniedDivisions = [] ∨
          ∃ id, row.column .divisionId = some id ∧ id ∉ scope.deniedDivisions) := by
  obtain ⟨_,parts,meaning⟩ := allowedParts_alternatives scope principal supplied row
  have never : ¬(Predicate.constant false).satisfied row [] := by
    rw [(binds_constant false).satisfied]; simp [Ternary.ofBool]
  unfold buildScopedWhere
  by_cases denied : scope.deniedGlobal
  · simp [denied,never]
  simp only [denied]
  rw [←meaning]
  generalize allowedParts scope principal (some sql) = compiled at parts ⊢
  obtain ⟨predicates,_⟩ := compiled
  cases predicates with
  | nil =>
    cases parts
    simp [never]
  | cons =>
    obtain ⟨_,bound,exact'⟩ := parts.disjunction
    have allowed := bound.group.satisfied
    have fenced := (bound.group.both (binds_isNotIn Column.divisionId scope.deniedDivisions)).group.satisfied
    rw [Ternary.and_yes,Ternary.negate_yes,member_no,exact'] at fenced
    rw [exact'] at allowed
    by_cases none' : scope.deniedDivisions.isEmpty
    · simp [allowed,List.isEmpty_iff.mp none']
    simp [none',fenced]
end

-- Where the two paths agree on a row.
def Agree (grants : List (GrantRow Permission)) (principal : StaffPrincipal) (permission : Permission)
    (resource : Resource) : Prop :=
  ¬Allowed grants principal permission resource ∨ DeniedAt grants principal permission resource .global ∨
    DeniedAt grants principal permission resource .division ∨
    ((DeniedAt grants principal permission resource .assigned ∨ DeniedAt grants principal permission resource .own) ↔
      (resource.divisionId = none ∧ DivisionDenied grants permission))

section
variable (grants : List (GrantRow Permission)) (principal : StaffPrincipal) (permission : Permission) (resource : Resource) (fragment : String → String → Ternary)
include grants principal permission resource fragment

theorem scopeAllows_iff (selects : ∀ staff, fragment sql staff = .ofBool (resource.assignedStaffIds.contains staff))
    (open' : ¬DeniedAt grants principal permission resource .global) :
    ScopeAllows (sqlScope grants permission) principal sql (resource.row fragment) ↔ Allowed grants principal permission resource := by
  have assigned : (resource.row fragment).fragment sql principal.id = .yes ↔ resource.assignedStaffIds.contains principal.id := by
    show fragment sql principal.id = .yes ↔ _
    rw [selects,Ternary.ofBool_yes]
  rw [ScopeAllows,assigned,allowedGlobal_iff grants principal permission resource open', allowedAssigned_iff grants principal permission resource]
  show _ ∨ (∃ id, resource.divisionId = some id ∧ _) ∨ _ ∨ (_ ∧ resource.createdBy = _) ↔ _
  rw [allowedDivision_iff grants principal permission resource,allowedOwn_iff grants principal permission resource]
  exact exists_scope.symm

theorem filter_iff (supplied : sql ≠ "") (selects : ∀ staff, fragment sql staff = .ofBool (resource.assignedStaffIds.contains staff)) :
    (buildScopedWhere (sqlScope grants permission) principal (some sql)).1.satisfied (resource.row fragment)
        (buildScopedWhere (sqlScope grants permission) principal (some sql)).2 ↔
      ¬DeniedAt grants principal permission resource .global ∧ Allowed grants principal permission resource ∧
        ¬DeniedAt grants principal permission resource .division ∧ ¬(resource.divisionId = none ∧ DivisionDenied grants permission) := by
  rw [buildScopedWhere_satisfied _ _ supplied,←Bool.not_eq_true,deniedGlobal_iff grants principal permission resource]
  have unfenced : ((sqlScope grants permission).deniedDivisions = [] ∨
      ∃ id, (resource.row fragment).column .divisionId = some id ∧ id ∉ (sqlScope grants permission).deniedDivisions) ↔
      ¬DeniedAt grants principal permission resource .division ∧
        ¬(resource.divisionId = none ∧ DivisionDenied grants permission) := by
    show (_ ∨ ∃ id, resource.divisionId = some id ∧ _) ↔ _
    rw [deniedDivision_iff,deniedDivisions_empty]
    cases division : resource.divisionId with
    | none => simp
    | some id =>
      have fresh : ¬DivisionDenied grants permission → id ∉ (sqlScope grants permission).deniedDivisions := by
        intro absent
        rw [(deniedDivisions_empty grants permission).mpr absent]
        exact not_mem_nil
      simp only [Option.some.injEq,exists_eq_left',reduceCtorEq,false_and,not_false_eq_true,and_true]
      exact ⟨fun either => either.elim fresh fun kept => kept,.inr⟩
  rw [unfenced]
  constructor
  · rintro ⟨open',allows,rest⟩
    exact ⟨open',(scopeAllows_iff grants principal permission resource fragment selects open').mp allows,rest⟩
  rintro ⟨open',allowed,rest⟩
  exact ⟨open',(scopeAllows_iff grants principal permission resource fragment selects open').mpr allowed,rest⟩
end

theorem list_filter_agrees (grants : List (GrantRow Permission)) (principal : StaffPrincipal)
    (permission : Permission) (resource : Resource) (assignmentSql : String) (fragment : String → String → Ternary) (supplied : assignmentSql ≠ "")
    (selects : ∀ staff, fragment assignmentSql staff = .ofBool (resource.assignedStaffIds.contains staff)) :
    ((buildScopedWhere (sqlScope grants permission) principal (some assignmentSql)).1.satisfied (resource.row fragment)
        (buildScopedWhere (sqlScope grants permission) principal (some assignmentSql)).2 ↔
      evaluatePermission grants principal permission (some resource.context) = true) ↔ Agree grants principal permission resource := by
  rw [filter_iff grants principal permission resource fragment supplied selects,evaluate_iff]
  rw [exists_scope,Agree]
  tauto

def exampleGrants : List (GrantRow String) :=
  [⟨"operations.view",.allow,.global,none,.role⟩,⟨"operations.view",.deny,.own,none,.override⟩]

def exampleResource : Resource := ⟨some "chippewa",some "kollins",["avery"]⟩
def exampleAssignment : String := "EXISTS (SELECT 1 FROM operation_staff os WHERE os.operation_id=o.id AND os.staff_id=?)"
def exampleFragment (_ : String) (staff : String) : Ternary := .ofBool (exampleResource.assignedStaffIds.contains staff)

theorem list_filter_disagrees : ¬((buildScopedWhere (sqlScope exampleGrants "operations.view") ⟨"kollins"⟩ (some exampleAssignment)).1.satisfied
        (exampleResource.row exampleFragment) (buildScopedWhere (sqlScope exampleGrants "operations.view") ⟨"kollins"⟩ (some exampleAssignment)).2 ↔
      evaluatePermission exampleGrants ⟨"kollins"⟩ "operations.view" (some exampleResource.context) = true) := by
  unfold Predicate.satisfied
  decide

theorem list_filter_agrees_example : ((buildScopedWhere (sqlScope exampleGrants "operations.view") ⟨"avery"⟩ (some exampleAssignment)).1.satisfied
        (exampleResource.row exampleFragment) (buildScopedWhere (sqlScope exampleGrants "operations.view") ⟨"avery"⟩ (some exampleAssignment)).2 ↔
      evaluatePermission exampleGrants ⟨"avery"⟩ "operations.view" (some exampleResource.context) = true) ↔
    Agree exampleGrants ⟨"avery"⟩ "operations.view" exampleResource :=
  list_filter_agrees exampleGrants ⟨"avery"⟩ "operations.view" exampleResource exampleAssignment exampleFragment
    (by decide) fun _ => rfl

section
variable {grants more : List (GrantRow Permission)} {principal : StaffPrincipal} {permission : Permission} {sql : String}

def Listed (grants : List (GrantRow Permission)) (principal : StaffPrincipal) (permission : Permission) (sql : String) (row : Row Column String) : Prop :=
  let filter := buildScopedWhere (sqlScope grants permission) principal (some sql)
  filter.1.satisfied row filter.2

omit [DecidableEq Permission] in
theorem any_among {test : GrantRow Permission → Bool} (among : ∀ grant ∈ grants, test grant → grant ∈ more) (some_ : (grants.filter p).any test) :
    (more.filter p).any test := by
  obtain ⟨grant,mem,passes⟩ := any_eq_true.mp some_
  obtain ⟨listed,chosen⟩ := mem_filter.mp mem
  exact any_eq_true.mpr ⟨grant,mem_filter.mpr ⟨among grant listed passes,chosen⟩,passes⟩

-- Access grows with the allow rows and shrinks with the overriding denies; no other row counts, nor their order.
theorem access_monotone (supplied : sql ≠ "") (kept : ∀ grant ∈ grants, grant.effect = .allow → grant ∈ more)
    (fewer : ∀ grant ∈ more, overrideDeny grant = true → grant ∈ grants) :
    (∀ context, evaluatePermission grants principal permission context = true → evaluatePermission more principal permission context = true) ∧
      ∀ row, Listed grants principal permission sql row → Listed more principal permission sql row := by
  have allowing : ∀ scope, ∀ grant ∈ grants, allows scope grant → grant ∈ more := fun _ grant mem allow =>
    kept grant mem (of_decide_eq_true (Bool.and_eq_true_iff.mp allow).1)
  have denying : ∀ scope, ∀ grant ∈ more, denies scope grant → grant ∈ grants := fun _ grant mem deny =>
    fewer grant mem (Bool.and_eq_true_iff.mp deny).1
  refine ⟨fun context allowed => ?_,fun row => ?_⟩
  · simp only [evaluatePermission] at allowed ⊢
    split at allowed
    · cases allowed
    rename_i undenied
    rw [if_neg fun denied => undenied (any_among fewer denied)]
    exact any_among (fun grant mem allow => kept grant mem (of_decide_eq_true allow)) allowed
  simp only [Listed,buildScopedWhere_satisfied _ _ supplied]
  rintro ⟨undenied,reached,unfenced⟩
  have still : (sqlScope more permission).deniedGlobal = false := Bool.eq_false_iff.mpr fun denied =>
    Bool.eq_false_iff.mp undenied (any_among (denying .global) denied)
  have fence : (sqlScope more permission).deniedDivisions ⊆ (sqlScope grants permission).deniedDivisions := fun id mem => by
    obtain ⟨filled,grant,listed,same,deny,named⟩ := (mem_deniedDivisions more permission id).mp mem
    exact (mem_deniedDivisions grants permission id).mpr ⟨filled,grant,denying .division grant listed deny,same,deny,named⟩
  refine ⟨still,?_,unfenced.imp (fun empty => subset_nil.mp fun _ mem => ?_) fun ⟨id,is,clear⟩ => ⟨id,is,fun mem => clear (fence mem)⟩⟩
  case refine_2 => exact empty ▸ fence mem
  rcases reached with everywhere | ⟨id,is,mem⟩ | ⟨assigned,staff⟩ | ⟨own,created⟩
  · refine .inl (show (!(sqlScope more permission).deniedGlobal && _) = true from ?_)
    rw [still]
    exact any_among (allowing .global) (Bool.and_eq_true_iff.mp everywhere).2
  · obtain ⟨filled,grant,listed,same,allow,named⟩ := (mem_divisions grants permission id).mp mem
    exact .inr (.inl ⟨id,is,(mem_divisions more permission id).mpr ⟨filled,grant,allowing .division grant listed allow,same,allow,named⟩⟩)
  · exact .inr (.inr (.inl ⟨any_among (allowing .assigned) assigned,staff⟩))
  · exact .inr (.inr (.inr ⟨any_among (allowing .own) own,created⟩))
end

theorem access_monotone_example : evaluatePermission (exampleGrants.take 1) ⟨"avery"⟩ "operations.view" (some exampleResource.context) = true :=
  (@access_monotone String _ exampleGrants (exampleGrants.take 1) ⟨"avery"⟩ "operations.view" exampleAssignment (by decide) (by simp [exampleGrants])
    (by simp [exampleGrants,overrideDeny])).1 _ (by decide)
end LedgeTopOps.ScopedAccess
