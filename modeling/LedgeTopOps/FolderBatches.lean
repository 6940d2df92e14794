import Mathlib.Algebra.Ring.Int.Defs
import Mathlib.Data.List.Sort

namespace LedgeTopOps.FolderBatches

def maxAttempts : Nat := 3
def maxRecipients : Nat := 200

structure Subscription where
  (accountId logicalGrantId recipientIdentityId : String)
  deriving DecidableEq

inductive Mode where
  | off
  | added
  | removed
  | both
  deriving DecidableEq

-- `live` stands for scope_type='client', no project, not revoked and not superseded.
structure Association where
  (id accountId : String)
  logicalGrantId : Option String
  r2Prefix : List Char
  live : Bool
  deriving DecidableEq

structure Preference where
  subscription : Subscription
  mode : Mode
  deriving DecidableEq

inductive Status where
  | pending
  | processing
  | sent
  | cancelled
  | suppressed
  | failed
  deriving DecidableEq

-- The items of a batch are the rows with its id. Event tokens, lease tokens and
-- batch ids are random UUIDs, which a counter stands for.
structure Item where
  object : String
  r2Key : List Char
  (baselinePresent currentPresent : Bool)
  eventToken : Nat
  deriving DecidableEq

structure Batch where
  id : Nat
  subscription : Subscription
  associationId : String
  revision : Nat
  status : Status
  eligibleAt : Int
  attemptCount : Nat
  sealedAt : Option Int
  leaseToken : Option Nat
  leaseExpiresAt : Option Int
  lastError : Option String
  (addedCount removedCount : Nat)
  dispatchFingerprint : Option String
  (publishedAt deliveredAt : Option Int)
  items : List Item
  deriving DecidableEq

structure ObjectState where
  subscription : Subscription
  object : String
  currentPresent : Bool
  deriving DecidableEq

structure Recipient where
  subscription : Subscription
  associationId : String
  deriving DecidableEq

structure Call where
  key : List Char
  present : Bool
  recipients : List Recipient
  deriving DecidableEq

structure Selected where
  (id revision attemptCount : Nat)
  deriving DecidableEq

structure Claimed where
  (id leaseToken attemptCount : Nat)
  deriving DecidableEq

structure World where
  associations : List Association
  preferences : List Preference
  batches : List Batch
  objectStates : List ObjectState
  now : Int
  minted : Nat
  calls : List Call
  selected : List Selected
  claimed : List Claimed
  deriving DecidableEq

def World.initial (associations : List Association) (preferences : List Preference) : World :=
  ⟨associations,preferences,[],[],0,0,[],[],[]⟩

def Association.covers (association : Association) (key : List Char) : Bool :=
  decide (key.take association.r2Prefix.length = association.r2Prefix)

def Association.grants (association : Association) (subscription : Subscription) : Bool :=
  decide (association.accountId = subscription.accountId)
    && decide (association.logicalGrantId = some subscription.logicalGrantId)

-- The join the call reads first. More than two hundred rows make it throw.
def recipients (world : World) (key : List Char) : List Recipient :=
  (world.associations.filter fun association => association.live && association.covers key).flatMap fun association =>
    (world.preferences.filter fun preference => association.grants preference.subscription && decide (preference.mode ≠ .off)).map
      fun preference => ⟨preference.subscription,association.id⟩

structure Target where
  subscription : Subscription
  associationId : String
  batchId : Nat

def targets (call : Call) (minted : Nat) : List Target :=
  call.recipients.zipIdx.map fun (recipient,position) =>
    ⟨recipient.subscription,recipient.associationId,minted+position⟩

def live (world : World) (key : List Char) (target : Target) : Bool :=
  world.associations.any fun association => decide (association.id = target.associationId) && association.live
    && association.grants target.subscription && association.covers key
    && world.preferences.any fun preference => decide (preference.subscription = target.subscription) && decide (preference.mode ≠ .off)

def recorded (states : List ObjectState) (subscription : Subscription) (object : String) : Option Bool :=
  (states.find? fun row => decide (row.subscription = subscription) && decide (row.object = object)).map ObjectState.currentPresent

def different (world : World) (object : String) (present : Bool) (target : Target) : Bool :=
  decide (recorded world.objectStates target.subscription object ≠ some present)

def wanted (present : Bool) : Mode := if present then .added else .removed

def subscribed (world : World) (present : Bool) (target : Target) : Bool :=
  world.preferences.any fun preference => decide (preference.subscription = target.subscription)
    && (decide (preference.mode = wanted present) || decide (preference.mode = .both))

def Batch.open (batch : Batch) : Bool := decide (batch.status = .pending) && batch.sealedAt.isNone

def suppressReplaced (world : World) (key : List Char) (targets : List Target) (batches : List Batch) : List Batch :=
  batches.map fun batch =>
    if batch.open ∧ targets.any fun target => decide (target.subscription = batch.subscription)
        && decide (target.associationId ≠ batch.associationId) && live world key target then
      { batch with
        status := .suppressed
        revision := batch.revision+1
        sealedAt := some world.now
        lastError := some "grant-version-replaced" }
    else batch

def newBatch (now : Int) (target : Target) : Batch where
  id := target.batchId
  subscription := target.subscription
  associationId := target.associationId
  revision := 1
  status := .pending
  eligibleAt := now+300
  attemptCount := 0
  sealedAt := none
  leaseToken := none
  leaseExpiresAt := none
  lastError := none
  addedCount := 0
  removedCount := 0
  dispatchFingerprint := none
  publishedAt := none
  deliveredAt := none
  items := []

-- INSERT ... SELECT ... ON CONFLICT DO NOTHING, row by row.
def insertBatch (now : Int) (batches : List Batch) (target : Target) : List Batch :=
  if batches.any fun batch => decide (batch.subscription = target.subscription) && batch.open then batches
  else batches++[newBatch now target]

def insertBatches (world : World) (key : List Char) (object : String) (present : Bool) (targets : List Target)
    (batches : List Batch) : List Batch :=
  (targets.filter fun target => live world key target && different world object present target && subscribed world present target).foldl
    (insertBatch world.now) batches

def hasItem (items : List Item) (object : String) : Bool := items.any fun item => decide (item.object = object)

def upsertItem (items : List Item) (object : String) (key : List Char) (present : Bool) (token : Nat) : List Item :=
  if hasItem items object then
    items.map fun item =>
      if item.object = object ∧ item.currentPresent ≠ present then { item with currentPresent := present, eventToken := token }
      else item
  else items++[⟨object,key,!present,present,token⟩]

def insertItems (world : World) (key : List Char) (object : String) (present : Bool) (token : Nat) (targets : List Target)
    (batches : List Batch) : List Batch :=
  batches.map fun batch =>
    if batch.open ∧ targets.any fun target => decide (target.subscription = batch.subscription)
        && decide (target.associationId = batch.associationId) && live world key target && different world object present target
        && (subscribed world present target || hasItem batch.items object) then
      { batch with items := upsertItem batch.items object key present token }
    else batch

def touched (batch : Batch) (token : Nat) : Bool := batch.items.any fun item => decide (item.eventToken = token)

def counted (items : List Item) (baseline current : Bool) : Nat :=
  (items.filter fun item => decide (item.baselinePresent = baseline) && decide (item.currentPresent = current)).length

def recount (now : Int) (token : Nat) (batches : List Batch) : List Batch :=
  batches.map fun batch =>
    if batch.open ∧ touched batch token then
      { batch with
        revision := batch.revision+1
        addedCount := counted batch.items false true
        removedCount := counted batch.items true false
        eligibleAt := now+300 }
    else batch

def cancelNetZero (now : Int) (token : Nat) (batches : List Batch) : List Batch :=
  batches.map fun batch =>
    if batch.open ∧ batch.addedCount = 0 ∧ batch.removedCount = 0 ∧ touched batch token then
      { batch with
        status := .cancelled
        revision := batch.revision+1
        sealedAt := some now
        lastError := some "net-changes-cancelled" }
    else batch

def storeObjectState (states : List ObjectState) (subscription : Subscription) (object : String) (present : Bool) :
    List ObjectState :=
  if states.any fun row => decide (row.subscription = subscription) && decide (row.object = object) then
    states.map fun row =>
      if row.subscription = subscription ∧ row.object = object then { row with currentPresent := present } else row
  else states++[⟨subscription,object,present⟩]

def storeObjectStates (world : World) (key : List Char) (object : String) (present : Bool) (targets : List Target) :
    List ObjectState :=
  (targets.filter fun target => live world key target && different world object present target).foldl
    (fun states target => storeObjectState states target.subscription object present) world.objectStates

def recordedBatches (world : World) (key : List Char) (object : String) (present : Bool) (token : Nat) (targets : List Target) :
    List Batch :=
  let suppressed := suppressReplaced world key targets world.batches
  let inserted := insertBatches world key object present targets suppressed
  let itemised := insertItems world key object present token targets inserted
  cancelNetZero world.now token (recount world.now token itemised)

-- The transaction. There are no legacy rows, so its first statement inserts nothing.
def recordChange (world : World) (object : String) (call : Call) : World :=
  let token := world.minted
  let chosen := targets call (world.minted+1)
  { world with
    batches := recordedBatches world call.key object call.present token chosen
    objectStates := storeObjectStates world call.key object call.present chosen
    minted := world.minted+1+call.recipients.length }

def expired (now : Int) (lease : Option Int) : Bool := lease.any fun expires => decide (expires ≤ now)

def exhausted (now : Int) (batch : Batch) : Bool :=
  decide (batch.attemptCount ≥ maxAttempts)
    && (decide (batch.status = .pending) || decide (batch.status = .processing) && expired now batch.leaseExpiresAt)

-- The inner SELECT takes fifty rows in no particular order.
def failExhausted (now : Int) (chosen : List Nat) (batches : List Batch) : List Batch :=
  batches.map fun batch =>
    if chosen.contains batch.id then
      { batch with
        status := .failed
        revision := batch.revision+1
        sealedAt := batch.sealedAt <|> some now
        leaseToken := none
        leaseExpiresAt := none
        lastError := some "attempts-exhausted" }
    else batch

def exhaustedChoice (now : Int) (batches : List Batch) (chosen : List Nat) : Prop :=
  (∀ id ∈ chosen, ∃ batch ∈ batches, batch.id = id ∧ exhausted now batch) ∧ chosen.length ≤ 50 ∧
    (chosen.length = 50 ∨ ∀ batch ∈ batches, exhausted now batch → batch.id ∈ chosen)

instance : Decidable (exhaustedChoice now batches chosen) := inferInstanceAs (Decidable (_ ∧ _ ∧ _))

def claimable (now : Int) (batch : Batch) : Bool :=
  decide (batch.attemptCount < maxAttempts)
    && (decide (batch.status = .pending) && decide (batch.eligibleAt ≤ now)
      || decide (batch.status = .processing) && expired now batch.leaseExpiresAt)

def precedes (left right : Batch) : Prop :=
  left.eligibleAt < right.eligibleAt ∨ (left.eligibleAt = right.eligibleAt ∧ left.id ≤ right.id)

instance : DecidableRel precedes := fun _ _ => inferInstanceAs (Decidable (_ ∨ _))

def nextClaimable (now : Int) (batches : List Batch) : Option Batch :=
  ((batches.filter (claimable now)).insertionSort precedes).head?

def claims (now : Int) (selected : Selected) (batch : Batch) : Bool :=
  decide (batch.id = selected.id) && decide (batch.revision = selected.revision) && claimable now batch

def claim (now : Int) (selected : Selected) (token : Nat) (batches : List Batch) : List Batch :=
  batches.map fun batch =>
    if claims now selected batch then
      { batch with
        status := .processing
        revision := batch.revision+1
        attemptCount := batch.attemptCount+1
        sealedAt := batch.sealedAt <|> some now
        leaseToken := some token
        leaseExpiresAt := some (now+900) }
    else batch

def holds (claimed : Claimed) (batch : Batch) : Bool :=
  decide (batch.id = claimed.id) && decide (batch.status = .processing) && decide (batch.leaseToken = some claimed.leaseToken)

def suppress (claimed : Claimed) (reason : String) (batches : List Batch) : List Batch :=
  batches.map fun batch =>
    if holds claimed batch then
      { batch with
        status := .suppressed
        revision := batch.revision+1
        lastError := some reason
        leaseToken := none
        leaseExpiresAt := none }
    else batch

def publishes (now : Int) (claimed : Claimed) (fingerprint : String) (batch : Batch) : Bool :=
  holds claimed batch && (batch.leaseExpiresAt.any fun expires => decide (expires > now))
    && (batch.dispatchFingerprint.all fun earlier => decide (earlier = fingerprint))

def publish (now : Int) (claimed : Claimed) (added removed : Nat) (fingerprint : String) (batches : List Batch) : List Batch :=
  batches.map fun batch =>
    if publishes now claimed fingerprint batch then
      { batch with
        addedCount := added
        removedCount := removed
        dispatchFingerprint := batch.dispatchFingerprint <|> some fingerprint
        publishedAt := batch.publishedAt <|> some now }
    else batch

def markSent (now : Int) (claimed : Claimed) (batches : List Batch) : List Batch :=
  batches.map fun batch =>
    if holds claimed batch then
      { batch with
        status := .sent
        revision := batch.revision+1
        deliveredAt := some now
        leaseToken := none
        leaseExpiresAt := none
        lastError := none }
    else batch

def retry (now : Int) (claimed : Claimed) (batches : List Batch) : List Batch :=
  let attempt := claimed.attemptCount+1
  batches.map fun batch =>
    if holds claimed batch then
      { batch with
        status := if attempt ≥ maxAttempts then .failed else .pending
        revision := batch.revision+1
        eligibleAt := now+2^attempt*5*60
        leaseToken := none
        leaseExpiresAt := none
        lastError := some "notification-dispatch-failed" }
    else batch

-- A crash is that the next event of a call or sender never comes. What the sender reads of files and of the
-- recipient's standing is in its choice of suppress, publish, sent or retry.
inductive Event where
  | tick (time : Int)
  | associations (rows : List Association)
  | preferences (rows : List Preference)
  | look (key : List Char) (present : Bool)
  | write (call : Call)
  | failExhausted (chosen : List Nat)
  | select
  | claim (selected : Selected)
  | suppress (claimed : Claimed) (reason : String)
  | publish (claimed : Claimed) (added removed : Nat) (fingerprint : String)
  | sent (claimed : Claimed)
  | retry (claimed : Claimed)

variable (fingerprint : List Char → String)

def advance (world : World) : Event → Option World
  | .tick time => if world.now ≤ time then some { world with now := time } else none
  | .associations rows => some { world with associations := rows }
  | .preferences rows => some { world with preferences := rows }
  | .look key present =>
    let rows := recipients world key
    if rows.length ≤ maxRecipients ∧ rows ≠ [] then some { world with calls := world.calls++[⟨key,present,rows⟩] } else none
  | .write call =>
    if call ∈ world.calls then
      some { recordChange world (fingerprint call.key) call with calls := world.calls.erase call }
    else none
  | .failExhausted chosen =>
    if exhaustedChoice world.now world.batches chosen then
      some { world with batches := failExhausted world.now chosen world.batches }
    else none
  | .select => match nextClaimable world.now world.batches with
    | some batch => some { world with selected := world.selected++[⟨batch.id,batch.revision,batch.attemptCount⟩] }
    | none => none
  | .claim selected =>
    if selected ∈ world.selected then
      some { world with
        batches := claim world.now selected world.minted world.batches
        selected := world.selected.erase selected
        minted := world.minted+1
        claimed := if world.batches.any (claims world.now selected) then
          world.claimed++[⟨selected.id,world.minted,selected.attemptCount⟩] else world.claimed }
    else none
  | .suppress claimed reason =>
    if claimed ∈ world.claimed then
      some { world with batches := suppress claimed reason world.batches, claimed := world.claimed.erase claimed }
    else none
  | .publish claimed added removed dispatch =>
    if claimed ∈ world.claimed ∧ added+removed ≠ 0 then
      some { world with
        batches := publish world.now claimed added removed dispatch world.batches
        claimed := if world.batches.any (publishes world.now claimed dispatch) then world.claimed
          else world.claimed.erase claimed }
    else none
  | .sent claimed =>
    if claimed ∈ world.claimed then
      some { world with batches := markSent world.now claimed world.batches, claimed := world.claimed.erase claimed }
    else none
  | .retry claimed =>
    if claimed ∈ world.claimed then
      some { world with batches := retry world.now claimed world.batches, claimed := world.claimed.erase claimed }
    else none

def Step (before : World) (event : Event) (after : World) : Prop := advance fingerprint before event = some after
end LedgeTopOps.FolderBatches
