import LedgeTopOps.KeyedRows
import LedgeTopOps.RecursiveQueries

namespace LedgeTopOps.PortalAuthority
open KeyedRows RecursiveQueries

inductive EntityType where
  | organization | standaloneClient | department | client | project | contact
  deriving DecidableEq

inductive RootType where
  | organization | standaloneClient
  deriving DecidableEq

def RootType.entity : RootType → EntityType
  | .organization => .organization
  | .standaloneClient => .standaloneClient

-- A scope type with its public ID, which the code writes as "type:id". No type has a colon.
inductive Scope where
  | workspace (publicId : String)
  | folder (publicId : String)
  | entity (type : EntityType) (publicId : String)
  deriving DecidableEq

def Scope.project? : Scope → Option String
  | .entity .project publicId => some publicId
  | _ => none

-- What datetime() makes of a text, in seconds; none is a text that is no date.
abbrev Stamp := Option Nat

def lastSecond : Nat := 3652425*86400-1
def plusDays (days seconds : Nat) : Stamp := if seconds+days*86400 ≤ lastSecond then some (seconds+days*86400) else none

structure Entity where
  type : EntityType
  publicId : String
  parentPublicId : Option String
  (displayName sourceVersion : String)
  active : Bool
  deriving DecidableEq

abbrev Node := EntityType × String

def Entity.node (entity : Entity) : Node := (entity.type,entity.publicId)

structure Relation where
  (start target : Node)
  active : Bool

inductive Lifecycle where
  | active
  | completed (at_ : Nat)

structure Directory where
  entities : List Entity
  keyed : Keyed Entity.node entities
  relations : List Relation
  lifecycle : String → Option Lifecycle
  schemaVersion : Option Nat

inductive OwnerType where
  | organization | department | client | project
  deriving DecidableEq

def OwnerType.entity : OwnerType → EntityType
  | .organization => .organization
  | .department => .department
  | .client => .client
  | .project => .project

def folderOwnerEntityType (owner : OwnerType) (ownerPublicId : String) (rootType : RootType) (rootPublicId : String) : EntityType :=
  if owner = .client ∧ rootType = .standaloneClient ∧ ownerPublicId = rootPublicId then .standaloneClient else owner.entity

def addExactStandaloneClientScope (scopes : List Scope) (rootType : RootType) (rootPublicId : String) : List Scope :=
  if rootType = .standaloneClient ∧ scopes.contains (.entity .standaloneClient rootPublicId) then
    scopes++[.entity .client rootPublicId]
  else scopes

section
variable (now : Nat)

-- lifecycle_status='active' OR datetime(completed_at,'+30 days')>datetime('now'), which may be null.
def Lifecycle.retained : Lifecycle → Option Bool
  | .active => some true
  | .completed at_ => (plusDays 30 at_).map fun ends => decide (now < ends)

-- The lifecycle row that the structural mode asks for, and the one with a running window.
def Lifecycle.counts (structural : Bool) (lifecycle : Lifecycle) : Bool := structural || lifecycle.retained now == some true
end

namespace Directory
variable (d : Directory)

def live (node : Node) : Bool := d.entities.any fun entity => entity.active && decide (entity.node = node)

def roots (node : Node) : List Node := if d.live node then [node] else []

def parents (node : Node) : List Node :=
  (d.relations.filter fun relation => relation.active && decide (relation.target = node) && d.live relation.start).map Relation.start

-- WITH RECURSIVE lineage over the relations.
def lineage (node : Node) : List (Node × Nat) := unionRows d.parents (d.roots node) 12

-- The legacy tree: an entity's parent is every active entity with its parent's ID.
def legacyRoots (node : Node) : List Entity := d.entities.filter fun entity => entity.active && decide (entity.node = node)

def legacyParents (entity : Entity) : List Entity :=
  d.entities.filter fun parent => parent.active && decide (some parent.publicId = entity.parentPublicId)

def legacyLineage (node : Node) : List (Entity × Nat) := bagRows d.legacyParents (d.legacyRoots node) 8
end Directory

inductive Source where
  | projectAlpha | operations | clientInvitation | legacy
  deriving DecidableEq

inductive Effect where
  | allow | deny
  deriving DecidableEq

inductive Capability where
  | workspaceView | directoryRead | deliveryView | requestCreate | memberManage | delegatedShareCreate | viewerShareCreate
  deriving DecidableEq

inductive RowStatus where
  | active | suspended | revoked
  deriving DecidableEq

-- When a row holds: an expiry that is no date has passed.
structure Validity where
  status : RowStatus
  revoked : Bool
  validFrom : Stamp
  expiresAt : Option Stamp

def Validity.current (validity : Validity) (now : Nat) : Bool :=
  decide (validity.status = .active) && !validity.revoked && validity.validFrom.any (fun start => decide (start ≤ now)) &&
    validity.expiresAt.all fun stamp => stamp.any fun ends => decide (now < ends)

structure Entitlement where
  (id workspaceId identityId : String)
  capability : Capability
  effect : Effect
  scope : Scope
  source : Source
  sourceVersion : Option String
  validity : Validity
  accessTermsId : Option String

inductive DenialScope where
  | global
  | within (workspaceId : String) (scope : Scope)
  deriving DecidableEq

structure Denial where
  identityId : String
  scope : DenialScope
  validity : Validity

inductive TermsMode where
  | untilRevoked
  | specificDate (expiresAt : Nat)
  | projectEnd

structure Terms where
  (workspaceId sourceId projectPublicId : String)
  mode : TermsMode

structure Workspace where
  id : String
  rootType : RootType
  (rootPublicId displayName : String)
  legacyAccountId : Option String
  sourceId : String
  active : Bool

structure Membership where
  (workspaceId identityId : String)
  source : Source
  sourceVersion : Option String
  status : RowStatus
  revoked : Bool
  expiresAt : Option Stamp

def Membership.current (membership : Membership) (now : Nat) : Bool :=
  decide (membership.status = .active) && !membership.revoked &&
    membership.expiresAt.all fun stamp => stamp.any fun ends => decide (now < ends)

structure Binding where
  (id workspaceId : String)
  ownerType : OwnerType
  ownerPublicId : String
  sourceVersion : Option String
  active : Bool

structure Checkpoint where
  generationId : String
  sourceSequence : Nat

-- A row of portal_v2_directory_generations, its status active and complete or not.
structure Generation where
  sourceSequence : Nat
  whole : Bool
end LedgeTopOps.PortalAuthority
