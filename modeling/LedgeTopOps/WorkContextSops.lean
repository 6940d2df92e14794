import LedgeTopOps.ScopedAccess
import LedgeTopOps.KeyedRows

namespace LedgeTopOps.WorkContextSops
open ScopedAccess KeyedRows

-- The quick SOP links of a project or a task: who sees the work context, and the statement that decides it inside the
-- batch of the links.
inductive Permission where
  | projectsView | tasksView | sopsView | sopsAssign | operationsViewAll
  | other (key : String)
  deriving DecidableEq

inductive WorkContextKind where
  | project | task
  deriving DecidableEq

def viewPermission : WorkContextKind → Permission
  | .project => .projectsView
  | .task => .tasksView

structure RoleAssignment where
  (staffId roleId : String)
  scope : PermissionScope
  divisionId : Option String

structure PermissionOverride where
  staffId : String
  permission : Permission
  effect : Effect
  scope : PermissionScope
  divisionId : Option String

-- The tables grants are read from: synchronised and local role assignments, and overrides.
structure Authority where
  (assignments localAssignments : List RoleAssignment)
  rolePermissions : List (String × Permission)
  overrides : List PermissionOverride

structure Staff where
  id : String
  projectAlphaUserId : Option String

structure Connector where
  sourceId : String
  readVisible : Bool

structure Project where
  (id source : String)
  managerUserId : Option String
  active : Bool

structure Task where
  (id projectId source : String)
  createdByUserId : Option String
  active : Bool

structure Operation where
  (id projectId : String)
  active : Bool

-- A row of pa_project_assignments, pa_operation_assignments or pa_task_assignments.
structure Assignment where
  (target userId : String)
  active : Bool

structure SourceHead where
  source : String
  identityKey : Option String

structure DivisionMapping where
  kind : WorkContextKind
  (resourceId source : String)
  (identityKey divisionId : Option String)

structure Division where
  id : String
  active : Bool

structure Tables where
  staff : List Staff
  connectors : List Connector
  projects : List Project
  tasks : List Task
  operations : List Operation
  (projectAssignments operationAssignments taskAssignments : List Assignment)
  heads : List SourceHead
  mappings : List DivisionMapping
  divisions : List Division

structure Principal (tables : Tables) where
  staff : Staff
  stored : find Staff.id tables.staff staff.id = some staff

def primarySource : String := "project-alpha:primary"

section

def roleGrants (authority : Authority) (staffId : String) (assigned : List RoleAssignment) : List (GrantRow Permission) :=
  (assigned.filter (·.staffId = staffId)).flatMap fun a =>
    (authority.rolePermissions.filter (·.1 = a.roleId)).map fun rp => ⟨rp.2,.allow,a.scope,a.divisionId,.role⟩

def loadGrants (authority : Authority) (staffId : String) : List (GrantRow Permission) :=
  roleGrants authority staffId authority.assignments++roleGrants authority staffId authority.localAssignments ++
    (authority.overrides.filter (·.staffId = staffId)).map fun a => ⟨a.permission,a.effect,a.scope,a.divisionId,.override⟩

def isAdministrator (authority : Authority) (staffId : String) : Bool :=
  authority.assignments.any fun a => a.staffId = staffId && (a.roleId = "role-owner" || a.roleId = "role-admin") && a.scope = .global

def hasLocalGlobalAllow (authority : Authority) (staffId : String) (permission : Permission) : Bool :=
  authority.overrides.any fun a => a.staffId = staffId && a.permission = permission && a.effect = .allow && a.scope = .global
end

section
variable (tables : Tables)

def Tables.readVisible (source : String) : Bool :=
  (source = primarySource && !tables.connectors.any (·.sourceId = primarySource)) || tables.connectors.any fun c => c.sourceId = source && c.readVisible

def assignedTo (rows : List Assignment) (target user : String) : Bool :=
  rows.any fun a => a.target = target && a.userId = user && a.active

def Tables.manages (p : Project) (user : String) : Bool :=
  p.managerUserId = some user || assignedTo tables.projectAssignments p.id user

def Tables.named (p : Project) (user : String) : Bool :=
  tables.manages p user || (tables.operations.any fun o => o.projectId = p.id && o.active && assignedTo tables.operationAssignments o.id user) ||
    tables.tasks.any fun t => t.projectId = p.id && t.active && assignedTo tables.taskAssignments t.id user

def Tables.mapping (kind : WorkContextKind) (id source : String) : Option DivisionMapping :=
  tables.mappings.find? fun m => m.kind = kind && m.resourceId = id && m.source = source

def Tables.verified (source : String) (m : DivisionMapping) : Option String :=
  (tables.heads.find? (·.source = source)).bind fun head =>
    if m.identityKey.isSome && m.identityKey = head.identityKey then m.divisionId else none

def Tables.activeDivision (id : String) : Option String :=
  (tables.divisions.find? fun d => d.id = id && d.active).map Division.id

-- localDivisionJoin: a mapping of the task itself never falls back to its project.
def Tables.projectDivision (p : Project) : Option String :=
  ((tables.mapping .project p.id p.source).bind (tables.verified p.source)).bind tables.activeDivision

def Tables.taskDivision (t : Task) : Option String :=
  (match tables.mapping .task t.id t.source with
    | some own => tables.verified t.source own
    | none => (tables.mapping .project t.projectId t.source).bind (tables.verified t.source)).bind tables.activeDivision
end

section
variable (tables : Tables) (authority : Authority)

structure WorkContextRow where
  id : String
  (divisionId ownerId : Option String)
  (assignedStaffIds manageStaffIds : Option (List Char))

-- SELECT GROUP_CONCAT(s.id) FROM staff_users s WHERE the user of s is one of those chosen
def Tables.groupConcat (chosen : String → Bool) : Option (List Char) :=
  match tables.staff.filter fun s => s.projectAlphaUserId.any chosen with
  | [] => none
  | listed => some ([','].intercalate (listed.map (·.id.toList)))

def Tables.ownerOf (user : Option String) : Option String :=
  user.bind fun user => (tables.staff.find? (·.projectAlphaUserId = some user)).map Staff.id

def splitIds (ids : Option (List Char)) : List String :=
  match ids with
  | none => []
  | some ids => ((ids.splitOn ',').filter (· ≠ [])).map String.ofList

def contextResource (row : WorkContextRow) : ResourceContext where
  divisionId := row.divisionId
  divisionAuthorityUnknown := row.divisionId.isNone
  ownerId := row.ownerId
  assignedStaffIds := some (splitIds row.assignedStaffIds)

def contextManageResource (row : WorkContextRow) : ResourceContext where
  divisionId := row.divisionId
  divisionAuthorityUnknown := row.divisionId.isNone
  ownerId := row.ownerId
  assignedStaffIds := some (splitIds row.manageStaffIds)

def projectRow (p : Project) : WorkContextRow where
  id := p.id
  divisionId := tables.projectDivision p
  ownerId := tables.ownerOf p.managerUserId
  assignedStaffIds := tables.groupConcat (tables.named p)
  manageStaffIds := tables.groupConcat (tables.manages p)

def taskRow (t : Task) : WorkContextRow where
  id := t.id
  divisionId := tables.taskDivision t
  ownerId := tables.ownerOf t.createdByUserId
  assignedStaffIds := tables.groupConcat (assignedTo tables.taskAssignments t.id)
  manageStaffIds := tables.groupConcat (assignedTo tables.taskAssignments t.id)

-- What paProjectFilter and paResourceFilter ask alike, with the assignment clause of each.
def filterAdmits (scope : SqlScope) (staff : Staff) (administrator explicitAll visible : Bool) (source : String) (assigned : String → Bool) : Bool :=
  if scope.deniedGlobal then false
  else if administrator then visible
  else if explicitAll && scope.global then visible
  else if !truthy staff.projectAlphaUserId then false
  else visible && source = primarySource && staff.projectAlphaUserId.any assigned

def paProjectFilter (scope : SqlScope) (staff : Staff) (administrator explicitAll : Bool) (p : Project) : Bool :=
  filterAdmits scope staff administrator explicitAll (p.active && tables.readVisible p.source) p.source (tables.named p)

def paTaskFilter (scope : SqlScope) (staff : Staff) (administrator explicitAll : Bool) (t : Task) : Bool :=
  filterAdmits scope staff administrator explicitAll (t.active && tables.readVisible t.source) t.source (assignedTo tables.taskAssignments t.id)

def visibleContext (staff : Staff) (administrator : Bool) (kind : WorkContextKind) (id : String) : Option WorkContextRow :=
  let grants := loadGrants authority staff.id
  if evaluatePermission grants ⟨staff.id⟩ (viewPermission kind) none then
    let scope := sqlScope grants (viewPermission kind)
    let explicitAll := hasLocalGlobalAllow authority staff.id .operationsViewAll
    match kind with
    | .project => ((find Project.id tables.projects id).filter (paProjectFilter tables scope staff administrator explicitAll)).map (projectRow tables)
    | .task => ((find Task.id tables.tasks id).filter (paTaskFilter tables scope staff administrator explicitAll)).map (taskRow tables)
  else none

def mayView (staff : Staff) (row : WorkContextRow) : Bool :=
  evaluatePermission (loadGrants authority staff.id) ⟨staff.id⟩ .sopsView (some (contextResource row))

def mayAssign (staff : Staff) (row : WorkContextRow) : Bool :=
  evaluatePermission (loadGrants authority staff.id) ⟨staff.id⟩ .sopsAssign (some (contextManageResource row))

def visibleDecision (staff : Staff) (kind : WorkContextKind) (id : String) : Bool :=
  (visibleContext tables authority staff (isAdministrator authority staff.id) kind id).any fun row => mayView authority staff row && mayAssign authority staff row
end

variable (tables : Tables) (authority : Authority)

structure AuthoritativeRow where
  id : String
  divisionId : Option String
  (owned assigned manageAssigned : Bool)

-- source='project-alpha:primary' AND actor.project_alpha_user_id IS NOT NULL AND test
def relates (actor : Staff) (source : String) (test : String → Bool) : Bool :=
  source = primarySource && actor.projectAlphaUserId.any test

def authoritativeProject (actor : Staff) (p : Project) : AuthoritativeRow where
  id := p.id
  divisionId := tables.projectDivision p
  owned := relates actor p.source fun user => p.managerUserId = some user
  assigned := relates actor p.source (tables.named p)
  manageAssigned := relates actor p.source (tables.manages p)

def authoritativeTask (actor : Staff) (t : Task) : AuthoritativeRow where
  id := t.id
  divisionId := tables.taskDivision t
  owned := relates actor t.source fun user => t.createdByUserId = some user
  assigned := relates actor t.source (assignedTo tables.taskAssignments t.id)
  manageAssigned := relates actor t.source (assignedTo tables.taskAssignments t.id)

def authoritativeContext (actor : Staff) (kind : WorkContextKind) (id : String) : Option AuthoritativeRow :=
  match kind with
  | .project => ((find Project.id tables.projects id).filter fun p => p.active && tables.readVisible p.source).map (authoritativeProject tables actor)
  | .task => ((find Task.id tables.tasks id).filter fun t => t.active && tables.readVisible t.source).map (authoritativeTask tables actor)

def unscopedPermission (grants : List (GrantRow Permission)) (permission : Permission) : Bool :=
  !(grants.any fun g => g.permission = permission && overrideDeny g) && grants.any fun g => g.permission = permission && g.effect = .allow

def deniedBy (row : AuthoritativeRow) (assigned : Bool) (g : GrantRow Permission) : Bool :=
  match g.scope with
  | .global => true
  | .division => row.divisionId.isNone || g.divisionId = row.divisionId
  | .assigned => assigned
  | .own => row.owned

def allowedBy (row : AuthoritativeRow) (assigned : Bool) (g : GrantRow Permission) : Bool :=
  match g.scope with
  | .global => true
  | .division => row.divisionId.isSome && g.divisionId = row.divisionId
  | .assigned => assigned
  | .own => row.owned

-- scopedPermissionSql, with the value of the assignment column it names.
def scopedPermission (grants : List (GrantRow Permission)) (permission : Permission) (row : AuthoritativeRow) (assigned : Bool) : Bool :=
  !(grants.any fun g => g.permission = permission && overrideDeny g && deniedBy row assigned g) &&
    grants.any fun g => g.permission = permission && g.effect = .allow && allowedBy row assigned g

def allowed (staff : Staff) (kind : WorkContextKind) (row : AuthoritativeRow) : Bool :=
  let grants := loadGrants authority staff.id
  unscopedPermission grants (viewPermission kind) &&
    (isAdministrator authority staff.id || (hasLocalGlobalAllow authority staff.id .operationsViewAll &&
        grants.any fun g => g.permission = viewPermission kind && g.effect = .allow && g.scope = .global) ||
      row.assigned || row.owned) &&
    scopedPermission grants .sopsView row row.assigned

def guardInserts (staffId : String) (kind : WorkContextKind) (id : String) : Bool :=
  (find Staff.id tables.staff staffId).any fun actor => (authoritativeContext tables actor kind id).any fun row =>
    allowed authority actor kind row && scopedPermission (loadGrants authority actor.id) .sopsAssign row row.manageAssigned

structure Link where
  kind : WorkContextKind
  (contextId sopId revisionId : String)

structure Document where
  (id slug : String)

structure Revision where
  (id sopId : String)
  published : Bool
  deriving DecidableEq

structure Library where
  sets : List (WorkContextKind × String)
  links : List Link
  documents : List Document
  revisions : List Revision

def Library.linked (library : Library) (kind : WorkContextKind) (contextId slug revisionId : String) : Option Revision :=
  library.revisions.find? fun r => r.id = revisionId && r.published && library.sets.any (· = (kind,contextId)) &&
    (library.links.any fun l => l.kind = kind && l.contextId = contextId && l.revisionId = r.id && l.sopId = r.sopId) &&
    library.documents.any fun d => d.id = r.sopId && d.slug = slug

def readAuthorizedWorkContextSopRevision (library : Library) (staffId : String) (kind : WorkContextKind) (contextId slug revisionId : String) :
    Option Revision :=
  if 128 < contextId.length then none
  else (find Staff.id tables.staff staffId).bind fun actor => (authoritativeContext tables actor kind contextId).bind fun row =>
    if allowed authority actor kind row then library.linked kind row.id slug revisionId else none
end LedgeTopOps.WorkContextSops
