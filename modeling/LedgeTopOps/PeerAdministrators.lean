import LedgeTopOps.PortalRules

namespace LedgeTopOps.PeerAdministrators
open PortalAuthority

-- The input of a change and the command that a key stands for. Requests with the same
-- digest are the same.
structure Input where
  manager : Bool
  expectedVersion : Nat
  deriving DecidableEq

structure Command where
  (workspaceId actorId key identityId : String)
  input : Input
  resultVersion : Nat

-- What changes and suspensions of managers read besides the tables of authorization. `known` is the active identity
-- of an issuer and subject, also the one that a resolution comes to.
structure Tables (Principal : Type) extends Db Principal where
  principalsReady : Bool
  known : Principal → Option String
  resolved_known : ∀ principal identityId, resolved principal = some identityId → known principal = some identityId
  identityActive : String → Bool
  known_active : ∀ principal identityId, known principal = some identityId → identityActive identityId = true
  currentPrincipal : String → String → Option String → Bool
  secondaryManager : Principal → String → Bool
  entitlementVersion : String → Nat
  commands : List Command

structure Flags extends Env where
  peerAdministrators : Bool

section
variable {Principal : Type} (env : Env) (t : Tables Principal)

def Entitlement.manages (entitlement : Entitlement) (workspaceId identityId : String) (capability : Capability) (effect : Effect) : Bool :=
  decide (entitlement.workspaceId = workspaceId) && decide (entitlement.identityId = identityId) &&
    decide (entitlement.capability = capability) && decide (entitlement.effect = effect) && decide (entitlement.scope = .workspace workspaceId)

-- status='active' AND revoked_at IS NULL AND datetime(valid_from)<=datetime('now') AND expires_at IS NULL
def Validity.unlimited (validity : Validity) : Bool :=
  decide (validity.status = .active) && !validity.revoked && validity.validFrom.any (fun start => decide (start ≤ t.now)) && validity.expiresAt.isNone

def Membership.unlimited (membership : Membership) : Bool :=
  decide (membership.status = .active) && !membership.revoked && membership.expiresAt.isNone

def unboundTerms (entitlement : Entitlement) : Bool := !t.termsReady || entitlement.accessTermsId.isNone

def deniedWorkspace (workspaceId identityId : String) (capability : Capability) : Bool :=
  t.entitlements.any fun deny => Entitlement.manages deny workspaceId identityId capability .deny && deny.validity.current t.now

def workspaceCapabilityCapacitySql (workspaceId identityId : String) (capability : Capability) : Bool :=
  decide ((currentRules t.toDb workspaceId identityId capability).length ≤ 200)

def undenied (workspaceId identityId : String) : Bool :=
  !env.denylistEnabled || ((currentDenials t.toDb identityId workspaceId).all fun denial => match denial with
    | .global => false
    | .within _ scope => decide (scope ≠ .workspace workspaceId)) && decide ((currentDenials t.toDb identityId workspaceId).length ≤ 200)

def projectedMembership (membership : Membership) : Bool :=
  !t.principalsReady || decide (membership.source ≠ .projectAlpha) ||
    t.currentPrincipal membership.workspaceId membership.identityId membership.sourceVersion

def sameSource (membership : Membership) (allow : Entitlement) : Bool :=
  decide (allow.source ≠ .projectAlpha) || (decide (membership.source = .projectAlpha) && allow.sourceVersion.isSome &&
    decide (allow.sourceVersion = membership.sourceVersion))

-- unlimitedWorkspaceCapabilitySql, without its capacity.
def unlimitedWorkspaceCapabilitySql (workspaceId identityId : String) (capability : Capability) : Bool :=
  t.memberships.any fun membership => decide (membership.workspaceId = workspaceId) && decide (membership.identityId = identityId) &&
    t.identityActive identityId &&
    (t.workspaces workspaceId).any (fun workspace => workspace.active && decide (workspace.rootType = .organization) &&
      t.primaryWorkspaceAccount workspaceId && activeRootExists t.toDb workspaceId workspace) &&
    Membership.unlimited membership && projectedMembership t membership &&
    t.entitlements.any (fun allow => Entitlement.manages allow workspaceId identityId capability .allow && Validity.unlimited t allow.validity &&
      unboundTerms t allow && sameSource membership allow) &&
    undenied env t workspaceId identityId && !deniedWorkspace t workspaceId identityId capability

-- workspaceCapabilityPredicates, which two statements check if there are principals.
def hasUnlimitedWorkspaceCapability (workspaceId identityId : String) (capability : Capability) : Bool :=
  unlimitedWorkspaceCapabilitySql env t workspaceId identityId capability && workspaceCapabilityCapacitySql t workspaceId identityId capability

def hasUnlimitedWorkspaceAuthority (workspaceId identityId : String) : Bool :=
  hasUnlimitedWorkspaceCapability env t workspaceId identityId .workspaceView && hasUnlimitedWorkspaceCapability env t workspaceId identityId .memberManage

def managerVersion (workspaceId identityId : String) : Nat :=
  ((t.entitlements.filter fun entitlement => Entitlement.manages entitlement workspaceId identityId .memberManage .allow).map fun entitlement =>
    t.entitlementVersion entitlement.id).foldl max 0

def localManager (workspaceId identityId : String) (started : Bool) : Bool :=
  t.entitlements.any fun entitlement => Entitlement.manages entitlement workspaceId identityId .memberManage .allow &&
    decide (entitlement.source = .operations) && decide (entitlement.validity.status = .active) && !entitlement.validity.revoked &&
    (!started || entitlement.validity.validFrom.any fun start => decide (start ≤ t.now)) && entitlement.validity.expiresAt.isNone &&
    unboundTerms t entitlement
end

def primaryAlphaSourceId : String := "project-alpha:primary"

inductive Outcome where
  | replayed (manager : Bool) (version : Nat)
  | disabled | denied | notFound | managedSource | ineligible | lastManager | changed | conflict | invalid

section
variable {Principal : Type} (t : Tables Principal)

structure TargetRow where
  status : RowStatus
  source : Source
  expiresAt : Option Stamp
  managerVersion : Nat
  localManager : Bool

-- peerAdminTargetState, less the two policies that it checks apart.
def peerAdminTargetRow (workspaceId identityId : String) : Option TargetRow :=
  ((t.workspaces workspaceId).filter fun workspace => workspace.active && decide (workspace.rootType = .organization) &&
    decide (workspace.sourceId = primaryAlphaSourceId) && t.identityActive identityId).bind fun _ =>
      (t.memberships.find? fun membership => decide (membership.workspaceId = workspaceId) && decide (membership.identityId = identityId)).map
        fun membership => ⟨membership.status,membership.source,membership.expiresAt,managerVersion t workspaceId identityId,
          localManager t workspaceId identityId true⟩

def replayPeerAdminCommand (workspaceId actorId key identityId : String) (input : Input) : Option Outcome :=
  (t.commands.find? fun command => decide (command.workspaceId = workspaceId) && decide (command.actorId = actorId) && decide (command.key = key)).map
    fun command => if command.identityId = identityId ∧ command.input = input then .replayed command.input.manager command.resultVersion else .conflict
end

-- /^[A-Za-z0-9][A-Za-z0-9_-]{0,127}$/ and /^[A-Za-z0-9][A-Za-z0-9._:-]{15,127}$/.
def matchesText (marks : List Char) (least most : Nat) (text : String) : Bool := match text.toList with
  | [] => false
  | first :: rest => first.isAlphanum && rest.all (fun c => c.isAlphanum || marks.contains c) && decide (least ≤ rest.length) && decide (rest.length ≤ most)

def wellFormed (workspaceId identityId key : String) (input : Input) : Bool :=
  matchesText ['_','-'] 0 127 workspaceId && matchesText ['_','-'] 0 127 identityId && matchesText ['.','_',':','-'] 15 127 key &&
    decide (input.expectedVersion ≤ 9007199254740991)

section
variable {Principal : Type} (env : Flags)

structure Reads (Principal : Type) where
  (replay target manager eligible view manage authority candidates : Tables Principal)
  candidate : String → Tables Principal

def managerCandidates (t : Tables Principal) (workspaceId identityId : String) : List String :=
  (t.memberships.filter fun membership => decide (membership.workspaceId = workspaceId) && decide (membership.identityId ≠ identityId) &&
    t.identityActive membership.identityId && Membership.unlimited membership && t.entitlements.any fun allow =>
      Entitlement.manages allow workspaceId membership.identityId .memberManage .allow && Validity.unlimited t allow.validity && unboundTerms t allow).map
        Membership.identityId

def otherUnlimitedManager (seen : Reads Principal) (workspaceId identityId : String) : Option String :=
  let rows := ((managerCandidates seen.candidates workspaceId identityId).dedup.mergeSort fun left right => decide (left ≤ right)).take 201
  if 200 < rows.length then none
  else rows.find? fun candidate => hasUnlimitedWorkspaceAuthority env.toEnv (seen.candidate candidate) workspaceId candidate

structure Plan where
  actorId : String
  replacement : Option String

-- The reads of changeWorkspacePeerAdministrator, up to its batch.
def changeWorkspacePeerAdministrator (seen : Reads Principal) (principal : Principal) (workspaceId identityId : String) (input : Input)
    (key : String) : Except Outcome Plan := do
  if !env.peerAdministrators then throw .disabled
  if !wellFormed workspaceId identityId key input then throw .invalid
  let some actorId := seen.replay.known principal | throw .denied
  if let some replay := replayPeerAdminCommand seen.replay workspaceId actorId key identityId input then throw replay
  let some target := peerAdminTargetRow seen.target workspaceId identityId | throw .notFound
  let manager := hasUnlimitedWorkspaceCapability env.toEnv seen.manager workspaceId identityId .memberManage
  let eligible := hasUnlimitedWorkspaceCapability env.toEnv seen.eligible workspaceId identityId .workspaceView
  if target.source = .projectAlpha then throw .managedSource
  if target.status ≠ .active ∨ target.expiresAt ≠ none ∨ eligible = false then throw .ineligible
  if target.managerVersion ≠ input.expectedVersion then throw .changed
  if input.manager = manager then throw .changed
  if input.manager = false ∧ target.localManager = false then throw .managedSource
  if !authorizePortalWorkspaceCapability env.toEnv seen.view.toDb principal workspaceId .workspaceView (.workspace workspaceId) none ||
      !authorizePortalWorkspaceCapability env.toEnv seen.manage.toDb principal workspaceId .memberManage (.workspace workspaceId) none ||
      !hasUnlimitedWorkspaceAuthority env.toEnv seen.authority workspaceId actorId then throw .denied
  let replacement := if input.manager || !seen.replay.principalsReady then none else otherUnlimitedManager env seen workspaceId identityId
  if !input.manager && seen.replay.principalsReady && replacement.isNone then throw .lastManager
  return ⟨actorId,replacement⟩
end

section
variable {Principal : Type} (env : Flags) (t : Tables Principal)

def guardedMember (workspaceId identityId : String) : Bool :=
  ((t.workspaces workspaceId).any fun workspace => workspace.active && decide (workspace.rootType = .organization) &&
    decide (workspace.sourceId = primaryAlphaSourceId)) && t.identityActive identityId &&
    t.memberships.any fun membership => decide (membership.workspaceId = workspaceId) && decide (membership.identityId = identityId) &&
      decide (membership.source ≠ .projectAlpha) && Membership.unlimited membership

def existingManager (workspaceId identityId : String) : Bool :=
  t.entitlements.any fun allow => Entitlement.manages allow workspaceId identityId .memberManage .allow && Validity.unlimited t allow.validity &&
    unboundTerms t allow

-- The predicates for the other manager, of whom there is one name or, without principals, any.
def otherManager (workspaceId identityId : String) (replacement : Option String) : Bool :=
  if t.principalsReady then replacement.any fun other =>
    (t.memberships.any fun membership => decide (membership.workspaceId = workspaceId) && decide (membership.identityId = other) &&
      t.identityActive other && Membership.unlimited membership) && hasUnlimitedWorkspaceAuthority env.toEnv t workspaceId other
  else t.memberships.any fun membership => decide (membership.workspaceId = workspaceId) && decide (membership.identityId ≠ identityId) &&
    hasUnlimitedWorkspaceAuthority env.toEnv t workspaceId membership.identityId

-- The fence of a change: MIN(authorized) over its predicates.
def changeGuard (plan : Plan) (workspaceId identityId : String) (input : Input) : Bool :=
  hasUnlimitedWorkspaceAuthority env.toEnv t workspaceId plan.actorId && guardedMember t workspaceId identityId &&
    hasUnlimitedWorkspaceCapability env.toEnv t workspaceId identityId .workspaceView &&
    decide (managerVersion t workspaceId identityId = input.expectedVersion) &&
    if input.manager then !existingManager t workspaceId identityId && !deniedWorkspace t workspaceId identityId .memberManage
    else hasUnlimitedWorkspaceCapability env.toEnv t workspaceId identityId .memberManage && localManager t workspaceId identityId false &&
      otherManager env t workspaceId identityId plan.replacement

def newGrant (workspaceId identityId entitlementId : String) (manager : Bool) : Entitlement where
  id := entitlementId
  workspaceId := workspaceId
  identityId := identityId
  capability := .memberManage
  effect := .allow
  scope := .workspace workspaceId
  source := .operations
  sourceVersion := none
  validity := if manager then ⟨.active,false,some t.now,none⟩ else ⟨.revoked,true,some t.now,none⟩
  accessTermsId := none

-- UPDATE portal_v2_entitlements SET status='revoked'.
def revokeGrant (workspaceId identityId : String) (entitlement : Entitlement) : Entitlement :=
  if (Entitlement.manages entitlement workspaceId identityId .memberManage .allow && decide (entitlement.source = .operations) &&
      decide (entitlement.validity.status = .active) && !entitlement.validity.revoked) = true then
    {entitlement with validity := {entitlement.validity with status := .revoked,revoked := true}}
  else entitlement

def changeBatch (plan : Plan) (workspaceId identityId : String) (input : Input) (key entitlementId : String) : Option (Tables Principal) :=
  if changeGuard env t plan workspaceId identityId input && t.entitlements.all (fun entitlement => decide (entitlement.id ≠ entitlementId)) &&
      t.commands.all fun command => decide (¬(command.workspaceId = workspaceId ∧ command.actorId = plan.actorId ∧ command.key = key)) then
    let kept := if input.manager then t.entitlements else t.entitlements.map (revokeGrant workspaceId identityId)
    some {t with
      entitlements := kept++[newGrant t workspaceId identityId entitlementId input.manager]
      entitlementVersion := fun id => if id = entitlementId then input.expectedVersion+1 else t.entitlementVersion id
      commands := t.commands++[⟨workspaceId,plan.actorId,key,identityId,input,input.expectedVersion+1⟩]}
  else none
end

variable {Principal : Type} (env : Flags) (t : Tables Principal)

-- secondaryManagerContext is for workspaces of another source.
def secondaryManagerContext (principal : Principal) (workspaceId : String) : Bool :=
  ((t.workspaces workspaceId).any fun workspace => workspace.active && decide (workspace.sourceId ≠ primaryAlphaSourceId)) &&
    t.secondaryManager principal workspaceId

def mayManage (workspaceId identityId : String) : Bool :=
  t.entitlements.any (fun allow => Entitlement.manages allow workspaceId identityId .memberManage .allow && allow.validity.current t.now) &&
    !deniedWorkspace t workspaceId identityId .memberManage

structure SuspensionReads (Principal : Type) where
  (manage target : Tables Principal)

def suspendWorkspaceMember (seen : SuspensionReads Principal) (principal : Principal) (workspaceId identityId : String) : Bool :=
  (seen.manage.known principal).isSome && (secondaryManagerContext seen.manage principal workspaceId ||
    authorizePortalWorkspaceCapability env.toEnv seen.manage.toDb principal workspaceId .memberManage (.workspace workspaceId) none) &&
    seen.target.memberships.any fun membership => decide (membership.workspaceId = workspaceId) && decide (membership.identityId = identityId) &&
      decide (membership.status = .active) && decide (membership.source ≠ .projectAlpha)

def acceptedOther (workspaceId identityId : String) (membership : Membership) : Bool :=
  decide (membership.workspaceId = workspaceId) && decide (membership.identityId ≠ identityId) && membership.current t.now &&
    t.identityActive membership.identityId && mayManage t workspaceId membership.identityId

def suspendable (workspaceId identityId : String) : Bool :=
  !mayManage t workspaceId identityId || t.memberships.any (acceptedOther t workspaceId identityId)

def suspendMember (workspaceId identityId : String) (membership : Membership) : Membership :=
  if membership.workspaceId = workspaceId ∧ membership.identityId = identityId ∧ membership.status = .active then {membership with status := .suspended}
  else membership

def suspendGrant (workspaceId identityId : String) (entitlement : Entitlement) : Entitlement :=
  if entitlement.workspaceId = workspaceId ∧ entitlement.identityId = identityId ∧ entitlement.validity.status = .active then
    {entitlement with validity := {entitlement.validity with status := .suspended}}
  else entitlement

def suspends (workspaceId identityId : String) : Bool :=
  suspendable t workspaceId identityId && t.memberships.any fun membership => decide (membership.workspaceId = workspaceId) &&
    decide (membership.identityId = identityId) && decide (membership.status = .active)

def suspendBatch (workspaceId identityId : String) : Tables Principal :=
  if suspends t workspaceId identityId then
    {t with
      memberships := t.memberships.map (suspendMember workspaceId identityId)
      entitlements := t.entitlements.map (suspendGrant workspaceId identityId)}
  else t
end LedgeTopOps.PeerAdministrators
