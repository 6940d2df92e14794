import LedgeTopOps.PortalListing

namespace LedgeTopOps.PortalAuthority
open KeyedRows RecursiveQueries

section
variable {Principal : Type} (env : Env) (db : Db Principal)

abbrev Group := List (Entity × Nat)

-- roots: a folder's owner has the version its binding was made for.
def nativeRoots (directory : Directory) (workspaceId : String) (workspace : Workspace) (target : Scope) : List Entity := match target with
  | .workspace _ => []
  | .folder bindingId => (db.binding workspaceId bindingId).elim [] fun binding =>
    directory.entities.filter fun entity => entity.active && decide (entity.node =
      (folderOwnerEntityType binding.ownerType binding.ownerPublicId workspace.rootType workspace.rootPublicId,binding.ownerPublicId)) &&
      decide (binding.sourceVersion = some entity.sourceVersion)
  | .entity type publicId => directory.entities.filter fun entity => entity.active && decide (entity.node = (type,publicId))

def nativeParents (directory : Directory) (entity : Entity) : List Entity :=
  if env.relations then
    (directory.relations.filter fun relation => relation.active && decide (relation.target = entity.node)).flatMap fun relation =>
      directory.entities.filter fun parent => parent.active && decide (parent.node = relation.start)
  else if (directory.legacyParents entity).length = 1 then directory.legacyParents entity else []

def nativeDepth : Nat := if env.relations then 12 else 8

-- current_generation: without relations, no contract of the third schema.
def nativeDirectory (workspaceId : String) : Option Directory :=
  (db.activeDirectory workspaceId).filter fun directory => env.relations || decide (directory.schemaVersion ≠ some 3)

-- The column `retained`: -1, 0 or 1.
def retainedColumn (directory : Directory) (entity : Entity) : Int :=
  if entity.type ≠ .project ∨ env.relations = false then 1
  else match directory.lifecycle entity.publicId with
    | none => -1
    | some lifecycle => if lifecycle.retained db.now = some true then 1 else 0

structure NativeTargetScopes where
  target : Scope
  scopes : List Scope
  proofRows : List (Entity × Int)

def nativeScopes (directory : Directory) (workspaceId : String) (workspace : Workspace) (target : Scope) (group : Group) :
    Option NativeTargetScopes :=
  let nodes := group.map fun row => Node.scope row.1.node
  if group.isEmpty || decide ((if env.relations then 64 else 10) < group.length) ||
      group.any (fun row => decide (retainedColumn env db directory row.1 < 0)) ||
      (env.relations && group.any fun row => decide (12 ≤ row.2)) then none
  -- A revisited ancestor is a cycle.
  else if !env.relations && decide (nodes.dedup.length ≠ group.length) then none
  else if !nodes.contains (.entity workspace.rootType.entity workspace.rootPublicId) then none
  else some ⟨target,addExactStandaloneClientScope (nodes++[.workspace workspaceId,target]) workspace.rootType workspace.rootPublicId,
    group.map fun row => (row.1,retainedColumn env db directory row.1)⟩

-- readNativeTargetScopes in its structural mode. Exhaustion is an error.
def readNativeTargetScopes (workspaceId : String) (workspace : Workspace) (targets : List Scope) : Option (List NativeTargetScopes) :=
  if 200 < targets.length then none
  else
    let requested := targets.dedup
    match nativeDirectory env db workspaceId with
    | none => some []
    | some directory =>
      let rows := (unionRows (tagged (nativeParents env directory)) (bases (nativeRoots db directory workspaceId workspace) requested)
        (nativeDepth env)).take (targets.length*65+1)
      if targets.length*65 < rows.length then none
      else some (requested.filterMap fun target => nativeScopes env db directory workspaceId workspace target (ofTarget rows target))

def expiredProjects (scope : NativeTargetScopes) (retainedProjectId : Option String) : List String :=
  (scope.proofRows.filter fun row => decide (row.1.type = .project) && decide (row.2 = 0) &&
    decide (some row.1.publicId ≠ retainedProjectId)).map fun row => row.1.publicId

def authorizePrimaryPortalTargetBatch (principal : Principal) (workspaceId : String) (targets : List (Scope × Option String))
    (capability : Capability) : Option (List Scope) :=
  if !env.hierarchyV2 || targets.isEmpty || db.claimed workspaceId then some []
  else if 100 < targets.length then none
  else match resolveGlobalIdentity env db principal with
    | none => some []
    | some identity => match (activeWorkspace db identity workspaceId).filter (activeRootExists db workspaceId) with
      | none => some []
      | some workspace => (readNativeTargetScopes env db workspaceId workspace (targets.map Prod.fst)).map fun scopes =>
        (targets.filter fun item => (scopes.find? fun scope => decide (scope.target = item.1)).any fun scope =>
          !deniedByIdentityRows (readDenials env db identity workspaceId) workspaceId scope.scopes &&
            allowedByEntitlementRows (readRules db workspaceId identity capability) scope.scopes (expiredProjects scope item.2) false
              (historyOf capability item.1)).map Prod.fst
end

variable {Principal : Type} (env : Env) (db : Db Principal) (workspaceId : String)

def Fresh (directory : Directory) (target : Scope) (node : Node) : Prop := ∀ bindingId binding, target = .folder bindingId →
  db.binding workspaceId bindingId = some binding → ∀ entity ∈ directory.legacyRoots node, binding.sourceVersion = some entity.sourceVersion

-- In the legacy tree no parent's ID is that of several entities.
def Unambiguous (directory : Directory) (node : Node) : Prop :=
  ∀ row ∈ directory.legacyLineage node, row.2 < 8 → (directory.legacyParents row.1).length ≤ 1

def Acyclic (directory : Directory) (node : Node) : Prop := ((directory.legacyLineage node).map fun row => row.1.node).Nodup

-- What holds of the entity of a target, wherever the workspace and its directory have one.
def Of (holds : Directory → Node → Prop) (target : Scope) : Prop := ∀ workspace directory node own, db.workspaces workspaceId = some workspace →
  db.activeDirectory workspaceId = some directory → startNode db workspaceId workspace target = some (node,own) → holds directory node

def Traceable (target : Scope) : Prop := env.relations = true ∨ Of db workspaceId Unambiguous target

def Suits (target : Scope) : Prop := workspaceTarget target = false ∧ Of db workspaceId (fun directory node => Fresh db workspaceId directory target node) target ∧
  (env.relations = true ∨ Of db workspaceId Acyclic target)
end LedgeTopOps.PortalAuthority
