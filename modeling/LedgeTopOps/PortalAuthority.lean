import LedgeTopOps.PortalDirectory

namespace LedgeTopOps.PortalAuthority
open KeyedRows

structure Env where
  (hierarchyV2 relations identityDenylist : Bool)

def Env.denylistEnabled (env : Env) : Bool := env.hierarchyV2 && env.identityDenylist

-- The tables that decide a portal read; what others say of an account, a principal or a source comes as answers:
-- `resolved` is the identity found and not blocked, `termRetention` the projects that retained terms name.
structure Db (Principal : Type) where
  now : Nat
  termsReady : Bool
  claimed : String → Bool
  resolved : Principal → Option String
  (rootAccessAllowed primaryWorkspaceAccount : String → Bool)
  primaryLegacyWorkspaceMembership : String → String → Bool
  termRetention : Principal → String → List String → List String
  ownsSource : String → String → Bool
  currentlyActive : String → String → String → Bool
  workspaces : String → Option Workspace
  memberships : List Membership
  checkpoints : String → Option Checkpoint
  generations : String → String → Option Generation
  directories : String → String → Directory
  bindings : List Binding
  entitlements : List Entitlement
  denials : List Denial
  terms : String → Option Terms
  deadlines : String → Option Nat

variable {Principal : Type} (env : Env) (db : Db Principal)

def Db.activeDirectory (workspaceId : String) : Option Directory :=
  (db.checkpoints workspaceId).bind fun checkpoint =>
    ((db.generations workspaceId checkpoint.generationId).filter Generation.whole).map fun _ =>
      db.directories workspaceId checkpoint.generationId

def projectAccessTermsSql (termsId : Option String) (workspaceId : String) (projectPublicId : Option String) (legacyRetained : Option Bool) :
    Option Bool :=
  match termsId with
  | none => legacyRetained
  | some id => some ((db.terms id).any fun term =>
      decide ((db.workspaces term.workspaceId).map Workspace.sourceId = some term.sourceId) &&
      db.ownsSource term.workspaceId term.sourceId && decide (term.workspaceId = workspaceId) &&
      decide (projectPublicId = some term.projectPublicId) && match term.mode with
        | .untilRevoked => true
        | .specificDate expiresAt => decide (db.now < expiresAt)
        | .projectEnd => match db.deadlines id with
          | some deadline => decide (db.now < deadline)
          | none => db.currentlyActive term.workspaceId term.sourceId term.projectPublicId)

def termsProject (entitlement : Entitlement) : Option String :=
  (entitlement.accessTermsId.bind db.terms).map Terms.projectPublicId

def termsLive (entitlement : Entitlement) : Bool :=
  projectAccessTermsSql db entitlement.accessTermsId entitlement.workspaceId (termsProject db entitlement) (some true) == some true

def projectAccessCapacitySql (entitlement : Entitlement) : Bool :=
  !db.termsReady || decide (entitlement.effect = .deny) || termsLive db entitlement

def currentRules (workspaceId identityId : String) (capability : Capability) : List Entitlement :=
  db.entitlements.filter fun entitlement => decide (entitlement.workspaceId = workspaceId) &&
    decide (entitlement.identityId = identityId) && decide (entitlement.capability = capability) &&
    entitlement.validity.current db.now && projectAccessCapacitySql db entitlement

-- EntitlementRow with the columns of projectAccessReadColumns.
structure Rule where
  effect : Effect
  scope : Scope
  source : Option Source
  (accessTermsId termsProjectId : Option String)
  termsLive : Bool

def readRule (entitlement : Entitlement) : Rule :=
  if db.termsReady then
    ⟨entitlement.effect,entitlement.scope,some entitlement.source,entitlement.accessTermsId,termsProject db entitlement, termsLive db entitlement⟩
  else ⟨entitlement.effect,entitlement.scope,none,none,none,true⟩

-- LIMIT 201. Which rows it leaves out does not matter, as 201 of them are refused.
def readRules (workspaceId identityId : String) (capability : Capability) : List Rule :=
  ((currentRules db workspaceId identityId capability).take 201).map (readRule db)

def Rule.ordinaryHistory (rule : Rule) : Bool :=
  rule.scope.project?.isSome && (decide (rule.source = some .projectAlpha) || decide (rule.source = some .legacy))

-- projectAccessRowAllows. A terms ID is a UUID, so an empty one is no case.
def projectAccessRowAllows (rule : Rule) (scopes : List Scope) (expired : List String) (shell preserveOrdinaryHistory : Bool) : Bool :=
  match rule.accessTermsId with
  | none => expired.isEmpty || (preserveOrdinaryHistory && rule.ordinaryHistory)
  | some _ => rule.termsLive && rule.termsProjectId.any fun project =>
      (shell || scopes.contains (.entity .project project)) && expired.all fun id => decide (id = project)

def allowedLoop (scopes : List Scope) (expired : List String) (shell preserveOrdinaryHistory : Bool) : List Rule → Bool → Bool
  | [], allowed => allowed
  | rule :: rest, allowed =>
    if !scopes.contains rule.scope then allowedLoop scopes expired shell preserveOrdinaryHistory rest allowed
    else if rule.effect = .deny then false
    else allowedLoop scopes expired shell preserveOrdinaryHistory rest
      (allowed || projectAccessRowAllows rule scopes expired shell preserveOrdinaryHistory)

def allowedByEntitlementRows (rows : List Rule) (scopes : List Scope) (expired : List String) (shell preserveOrdinaryHistory : Bool) : Bool :=
  if 200 < rows.length then false else allowedLoop scopes expired shell preserveOrdinaryHistory rows false

def deniedByIdentityRows (rows : List DenialScope) (workspaceId : String) (scopes : List Scope) : Bool :=
  decide (200 < rows.length) || rows.any fun denial => match denial with
    | .global => true
    | .within workspace scope => decide (workspace = workspaceId) && scopes.contains scope

def currentDenials (identityId workspaceId : String) : List DenialScope :=
  (db.denials.filter fun denial => decide (denial.identityId = identityId) && denial.validity.current db.now &&
    match denial.scope with
      | .global => true
      | .within workspace _ => decide (workspace = workspaceId)).map Denial.scope

def readDenials (identityId workspaceId : String) : List DenialScope :=
  if env.denylistEnabled then (currentDenials db identityId workspaceId).take 201 else []

def identityDeniedForScopes (identityId workspaceId : String) (scopes : List Scope) : Bool :=
  env.denylistEnabled && deniedByIdentityRows ((currentDenials db identityId workspaceId).take 201) workspaceId scopes

def globallyDenied (identityId : String) : Bool :=
  db.denials.any fun denial => decide (denial.identityId = identityId) && decide (denial.scope = .global) && denial.validity.current db.now

def resolveGlobalIdentity (principal : Principal) : Option String :=
  (db.resolved principal).filter fun identity => !(env.denylistEnabled && globallyDenied db identity)

def activeWorkspace (identityId workspaceId : String) : Option Workspace :=
  (db.workspaces workspaceId).filter fun workspace => workspace.active && db.rootAccessAllowed workspaceId &&
    db.primaryWorkspaceAccount workspaceId && db.primaryLegacyWorkspaceMembership workspaceId identityId &&
    db.memberships.any fun membership => decide (membership.workspaceId = workspaceId) &&
      decide (membership.identityId = identityId) && membership.current db.now

def activeRootExists (workspaceId : String) (workspace : Workspace) : Bool :=
  (db.activeDirectory workspaceId).any fun directory => directory.live (workspace.rootType.entity,workspace.rootPublicId)

def Db.binding (workspaceId bindingId : String) : Option Binding :=
  db.bindings.find? fun binding => decide (binding.id = bindingId) && decide (binding.workspaceId = workspaceId) && binding.active

def startNode (workspaceId : String) (workspace : Workspace) (target : Scope) : Option (Node × List Scope) := match target with
  | .workspace _ => none
  | .folder bindingId => (db.binding workspaceId bindingId).map fun binding =>
      ((folderOwnerEntityType binding.ownerType binding.ownerPublicId workspace.rootType workspace.rootPublicId,binding.ownerPublicId), [.folder bindingId])
  | .entity type publicId => some ((type,publicId),[])

def Node.scope (node : Node) : Scope := .entity node.1 node.2
def projectIds (nodes : List Node) : List String := ((nodes.filter fun node => decide (node.1 = .project)).map Prod.snd).dedup

def relationRows (workspaceId : String) (workspace : Workspace) (directory : Directory) (own : List Scope) (rows : List (Node × Nat))
    (structural : Bool) : Option (List Scope) :=
  if rows.isEmpty || decide (64 < rows.length) || rows.any (fun row => decide (12 ≤ row.2)) then none
  else
    let projects := projectIds (rows.map Prod.fst)
    let retained := projects.filter fun id => (directory.lifecycle id).any (Lifecycle.counts db.now structural)
    if retained.length ≠ projects.length then none
    else
      let scopes := addExactStandaloneClientScope (.workspace workspaceId :: (own++rows.map fun row => Node.scope row.1))
        workspace.rootType workspace.rootPublicId
      if scopes.contains (.entity workspace.rootType.entity workspace.rootPublicId) then some scopes else none

def resolvePortalRelationTargetScopes (workspaceId : String) (workspace : Workspace) (target : Scope) (structural : Bool) : Option (List Scope) :=
  match target with
  | .workspace publicId => if publicId = workspaceId then some [.workspace workspaceId] else none
  | _ => (startNode db workspaceId workspace target).bind fun start => (db.activeDirectory workspaceId).bind fun directory =>
    relationRows db workspaceId workspace directory start.2 ((directory.lineage start.1).take 65) structural

-- targetScopes without the relations. A contract of the third schema is no legacy tree.
def legacyTargetScopes (workspaceId : String) (workspace : Workspace) (target : Scope) : Option (List Scope) :=
  if (db.checkpoints workspaceId).any fun checkpoint =>
      decide ((db.directories workspaceId checkpoint.generationId).schemaVersion = some 3) then none
  else match target with
    | .workspace publicId => if publicId = workspaceId then some [.workspace workspaceId] else none
    | _ => (startNode db workspaceId workspace target).bind fun start => (db.activeDirectory workspaceId).bind fun directory =>
      let rows := (directory.legacyLineage start.1).take 10
      if rows.isEmpty then none
      else
        let scopes := .workspace workspaceId :: (start.2++rows.map fun row => Node.scope row.1.node)
        if scopes.contains (.entity workspace.rootType.entity workspace.rootPublicId) then
          some (addExactStandaloneClientScope scopes workspace.rootType workspace.rootPublicId)
        else none

def targetScopes (workspaceId : String) (workspace : Workspace) (target : Scope) : Option (List Scope) :=
  if env.relations then resolvePortalRelationTargetScopes db workspaceId workspace target db.termsReady
  else legacyTargetScopes db workspaceId workspace target

def readExpiredScopeProjects (workspaceId : String) (scopes : List Scope) : List String :=
  if env.relations then
    (scopes.filterMap Scope.project?).filter fun id => !((db.checkpoints workspaceId).any fun checkpoint =>
      ((db.directories workspaceId checkpoint.generationId).lifecycle id).any fun lifecycle => lifecycle.retained db.now == some true)
  else []

def workspaceTarget (target : Scope) : Bool := match target with
  | .workspace _ => true
  | _ => false

def shellOf (capability : Capability) (target : Scope) : Bool := decide (capability = .workspaceView) && workspaceTarget target

def historyOf (capability : Capability) (target : Scope) : Bool :=
  decide (capability = .deliveryView) || (decide (capability = .directoryRead) && target.project?.isSome)

def authorizePortalWorkspaceCapability (principal : Principal) (workspaceId : String) (capability : Capability) (target : Scope)
    (retainedProjectId : Option String) : Bool :=
  env.hierarchyV2 && !db.claimed workspaceId && (resolveGlobalIdentity env db principal).any fun identity =>
    (activeWorkspace db identity workspaceId).any fun workspace => activeRootExists db workspaceId workspace &&
      (targetScopes env db workspaceId workspace target).any fun scopes =>
        !identityDeniedForScopes env db identity workspaceId scopes &&
          let expired := if db.termsReady then readExpiredScopeProjects env db workspaceId scopes else []
          allowedByEntitlementRows (readRules db workspaceId identity capability) scopes
            (expired.filter fun id => decide (some id ≠ retainedProjectId)) (shellOf capability target) (historyOf capability target)
end LedgeTopOps.PortalAuthority
