import LedgeTopOps.SqlBatches
import LedgeTopOps.WorkspacePublication

namespace LedgeTopOps.DeliveryChanges
open AtomicPrograms SqlBatches ClosedCodec WorkspacePublication

def maxItems : Nat := 50

inductive Mode where
  | off
  | added
  | removed
  | both

inductive Status where
  | pending
  | processing
  | sent
  | cancelled
  | suppressed
  | failed
  deriving DecidableEq

inductive OwnerScope where
  | organization
  | department
  | client
  | project

-- One recipient's row of the candidate query. `identity` are the ten other
-- identity strings of the row, which only have to be there.
structure Target where
  identity : List Text
  (grantVersion policyVersion : Int)
  accessNoticeEnabled : Bool
  changeMode : Mode
  ownerScopeType : OwnerScope
  r2Prefix : Text

-- The event's time is the instant its text denotes, where it denotes one.
structure StageInput where
  key : Text
  present : Bool
  objectVersion : Option Text
  eventAt : Option Nat
  acceptedSequence : Option Int
  providerObjectVersion : Option Text

structure Receipt where
  acceptedSequence : Nat
  providerObjectVersion : Text

structure ObjectState where
  present : Bool
  version : Option Text
  observedAt : Nat
  sequence : Option Nat
  provider : Option Text

structure Item where
  object : Text
  (baselinePresent currentPresent : Bool)
  (baselineVersion currentVersion : Option Text)
  token : Nat
  sequence : Option Nat
  provider : Option Text

-- A batch with its items. The items of all batches are one table, keyed by
-- batch and object.
structure Batch where
  id : Nat
  policyVersion : Int
  status : Status
  isSealed : Bool
  (addedCount removedCount : Nat)
  items : List Item

-- One recipient's rows under one grant version, an object's fingerprint standing for its key. `authority` is what the
-- authority clause asks, `selected` the row of the candidate query for a key, a kind and a time.
structure Store where
  ledger : Text → Option ObjectState
  batches : List Batch
  staged : List (Nat × Nat)
  policyVersion : Int
  authority : Target → Bool → Nat → Text → Bool
  selected : Text → Bool → Nat → Option Target

def Batch.isOpen (batch : Batch) : Bool := decide (batch.status = .pending) && !batch.isSealed
def Batch.item (batch : Batch) (object : Text) : Option Item := batch.items.find? fun item => decide (item.object = object)
def batchAt (s : Store) (id : Nat) : Option Batch := s.batches.find? fun batch => decide (batch.id = id)

def modeIncludes (mode : Mode) (present : Bool) : Bool :=
  match mode with
  | .both => true
  | .added => present
  | .removed => !present
  | .off => false

def trim (text : Text) : Text := ((text.dropWhile whitespace.contains).reverse.dropWhile whitespace.contains).reverse

def unquote (text : Text) : Text :=
  let tail := if text.head? = some 0x22 then text.tail else text
  if tail.getLast? = some 0x22 then tail.dropLast else tail

def cleanVersion (value : Option Text) : Option Text :=
  (value.map fun text => trim (unquote text)).bind fun text => if text = [] then none else some (text.take 512)

-- None for a malformed pair of receipt fields, none inside for an absent one.
def durableReceiptOrdering (input : StageInput) : Option (Option Receipt) :=
  match input.acceptedSequence,input.providerObjectVersion with
  | none,none => some none
  | some sequence,some provider =>
    if 1 ≤ sequence ∧ sequence ≤ 9007199254740991 ∧ provider ≠ [] ∧ trim provider = provider ∧ provider.length ≤ 512 then
      some (some ⟨sequence.toNat,provider⟩)
    else none
  | _,_ => none

def hasStageTargetShape (target : Target) : Bool :=
  (target.identity.all fun text => decide (text ≠ [])) && decide (target.r2Prefix ≠ []) && decide (0 < target.grantVersion)
    && decide (0 < target.policyVersion) && target.accessNoticeEnabled

inductive StageResult where
  | staged
  | duplicate
  | suppressed
  | threw

structure Change where
  target : Target
  key : Text
  present : Bool
  version : Option Text
  observedAt : Nat
  receipt : Option Receipt

-- stagingAuthoritySql, on the rows of the moment
def Change.authorized (change : Change) (s : Store) : Bool :=
  decide (change.target.policyVersion = s.policyVersion)
    && s.authority change.target change.present change.observedAt change.key

def Change.matches (change : Change) (row : ObjectState) : Bool :=
  decide (row.present = change.present) && decide (row.version = change.version)

inductive Path where
  | duplicate
  | conflict
  | settle
  | stage
  deriving DecidableEq

def path (change : Change) (state : Option ObjectState) : Path :=
  match change.receipt,state with
  | _,none => .stage
  | none,some row =>
    if row.sequence.isSome then .duplicate
    else if change.observedAt < row.observedAt then .duplicate
    else if change.matches row then (if row.observedAt < change.observedAt then .settle else .duplicate)
    else .stage
  | some receipt,some row => match row.sequence with
    | none => .stage
    | some sequence =>
      if receipt.acceptedSequence < sequence then .duplicate
      else if receipt.acceptedSequence = sequence then
        if row.provider ≠ some receipt.providerObjectVersion ∨ change.matches row = false then .conflict else .duplicate
      else if change.matches row ∧ row.provider = some receipt.providerObjectVersion then .settle
      else .stage

-- UPDATE of the high-water mark of an unchanged object.
def settles (change : Change) (row : ObjectState) : Bool :=
  change.matches row && match change.receipt with
    | some receipt => decide (row.provider = some receipt.providerObjectVersion)
      && row.sequence.all fun sequence => decide (sequence < receipt.acceptedSequence)
    | none => row.sequence.isNone && decide (row.observedAt < change.observedAt)

def settled (change : Change) (row : ObjectState) : ObjectState :=
  match change.receipt with
  | some receipt => { row with observedAt := change.observedAt, sequence := some receipt.acceptedSequence
                               provider := some receipt.providerObjectVersion }
  | none => { row with observedAt := change.observedAt }

def settleRow (change : Change) (s : Store) : Store :=
  { s with ledger := fun object =>
      if object = change.key then (s.ledger object).map fun row => if settles change row then settled change row else row
      else s.ledger object }

def alreadySettled (change : Change) (state : Option ObjectState) : Bool :=
  state.any fun row => match change.receipt with
    | some receipt => decide (row.sequence = some receipt.acceptedSequence)
      && decide (row.provider = some receipt.providerObjectVersion) && change.matches row
    | none => row.sequence.isNone && decide (change.observedAt ≤ row.observedAt)

def settleDuplicateHighWater (change : Change) : Program Store StageResult :=
  .call (settleRow change) (fun s =>
    if (s.ledger change.key).any (settles change) then .done .duplicate
    else .read (.done .threw) fun later =>
      if alreadySettled change (later.ledger change.key) then .done .duplicate else .done .threw) (.done .threw)

def modify (id : Nat) (update : Batch → Batch) (batches : List Batch) : List Batch :=
  batches.map fun batch => if batch.id = id then update batch else batch

def sealBatch (id : Nat) (s : Store) : Store :=
  { s with batches := modify id (fun batch => if batch.isOpen then { batch with isSealed := true } else batch) s.batches }

section
variable (change : Change) (batchId token : Nat)

def fence : Statement Store := fun s _ =>
  let found := s.batches.any fun batch => decide (batch.id = batchId) && batch.isOpen
    && ((batch.item change.key).isSome || decide (batch.items.length < maxItems)) && change.authorized s
  some (s,if found then 1 else 0)

def sequencedLedgerWriteAllowed (row : ObjectState) : Bool :=
  match change.receipt with
  | some receipt => row.sequence.all fun sequence => decide (sequence < receipt.acceptedSequence)
  | none => row.sequence.isNone && decide (row.observedAt ≤ change.observedAt) && !change.matches row

def ledgerRow (row : Option ObjectState) : ObjectState where
  present := change.present
  version := change.version
  observedAt := change.observedAt
  sequence := match change.receipt with
    | some receipt => some receipt.acceptedSequence
    | none => row.bind ObjectState.sequence
  provider := match change.receipt with
    | some receipt => some receipt.providerObjectVersion
    | none => row.bind ObjectState.provider

-- INSERT … SELECT … WHERE gate ON CONFLICT DO UPDATE … WHERE allowed
def writeLedger (gate : Store → Nat → Bool) : Statement Store :=
  guarded (fun s changes => gate s changes && (s.ledger change.key).all (sequencedLedgerWriteAllowed change)) fun s =>
    some { s with ledger := Function.update s.ledger change.key (some (ledgerRow change (s.ledger change.key))) }

-- One open batch for each policy version: a second one violates the unique index.
def insertBatch : Statement Store :=
  guarded (fun s changes => decide (changes = 1) && change.authorized s) fun s =>
    if s.batches.any fun batch => decide (batch.id = batchId)
        || (batch.isOpen && decide (batch.policyVersion = change.target.policyVersion)) then none
    else some { s with batches := s.batches++[⟨batchId,change.target.policyVersion,.pending,false,0,0,[]⟩] }

def newItem (baselinePresent : Bool) (baselineVersion : Option Text) : Item where
  object := change.key
  baselinePresent := baselinePresent
  currentPresent := change.present
  baselineVersion := baselineVersion
  currentVersion := change.version
  token := token
  sequence := change.receipt.map Receipt.acceptedSequence
  provider := change.receipt.map Receipt.providerObjectVersion

def updateItem (item : Item) : Item :=
  { item with
    currentPresent := change.present, currentVersion := change.version, token := token
    sequence := match change.receipt with
      | some receipt => some receipt.acceptedSequence
      | none => item.sequence
    provider := match change.receipt with
      | some receipt => some receipt.providerObjectVersion
      | none => item.provider }

def putItem (fresh : Item) (items : List Item) : List Item :=
  if items.any fun item => decide (item.object = change.key) then
    items.map fun item => if item.object = change.key then updateItem change token item else item
  else items++[fresh]

def writeItem (baselinePresent : Bool) (baselineVersion : Option Text) : Statement Store :=
  guarded (fun _ changes => decide (changes = 1)) fun s =>
    if s.batches.any fun batch => decide (batch.id = batchId) then
      some { s with batches := modify batchId (fun batch =>
        { batch with items := putItem change token (newItem change token baselinePresent baselineVersion) batch.items }) s.batches }
    else none

def counted (items : List Item) (baseline current : Bool) : Nat :=
  (items.filter fun item => item.baselinePresent == baseline && item.currentPresent == current).length

def touched (batch : Batch) : Bool := batch.items.any fun item => decide (item.token = token)

def countBatch (batch : Batch) : Batch :=
  if batch.isOpen && touched token batch then
    { batch with addedCount := counted batch.items false true, removedCount := counted batch.items true false }
  else batch

def recount : Statement Store := fun s _ =>
  some ({ s with batches := modify batchId (countBatch token) s.batches },
    (s.batches.filter fun batch => decide (batch.id = batchId) && batch.isOpen && touched token batch).length)

def unchanged (batch : Batch) : Bool :=
  batch.isOpen && decide (batch.addedCount = 0) && decide (batch.removedCount = 0)

def cancelBatch (batch : Batch) : Batch :=
  if unchanged batch then { batch with status := .cancelled, isSealed := true } else batch

def cancelUnchanged : Statement Store := fun s _ =>
  some ({ s with batches := modify batchId cancelBatch s.batches },
    (s.batches.filter fun batch => decide (batch.id = batchId) && unchanged batch).length)

def auditStaged : Statement Store := fun s _ =>
  if (s.batches.any fun batch => decide (batch.id = batchId) && touched token batch) && !s.staged.contains (batchId,token) then
    some ({ s with staged := s.staged++[(batchId,token)] },1)
  else some (s,0)

def bookkeeping : List (Statement Store) := [recount batchId token,cancelUnchanged batchId,auditStaged batchId token]
end

-- What an item of the open batch already has is kept. Otherwise the object was
-- the opposite of what the change says.
def baselines (change : Change) (state : Option ObjectState) (existing : Option Item) : Bool × Option Text :=
  ((existing.map Item.baselinePresent).getD (!change.present),
    match existing.bind Item.baselineVersion with
    | some version => some version
    | none => if change.present then none else ((state.bind ObjectState.version).or change.version))

def openStatements (change : Change) (batchId token : Nat) (baseline : Bool × Option Text) : List (Statement Store) :=
  [fence change batchId,writeLedger change fun _ changes => decide (changes = 1),
    writeItem change batchId token baseline.1 baseline.2]++bookkeeping batchId token

def newStatements (change : Change) (batchId token : Nat) (baseline : Bool × Option Text) : List (Statement Store) :=
  [writeLedger change fun s _ => change.authorized s,insertBatch change batchId,
    writeItem change batchId token baseline.1 baseline.2]++bookkeeping batchId token

def stagedOrDuplicate (counts : List Nat) : Program Store StageResult :=
  .done (if counts.getD 2 0 = 1 then .staged else .duplicate)

section
variable (name : Nat) (change : Change)

def writeOpen (batchId : Nat) (baseline : Bool × Option Text) : Program Store StageResult :=
  transact (openStatements change batchId name baseline) (.done .threw) fun counts =>
    if counts.getD 0 0 ≠ 1 then .done .threw
    else if counts.getD 1 0 ≠ 1 then settleDuplicateHighWater change
    else stagedOrDuplicate counts

def writeNew (baseline : Bool × Option Text) : Program Store StageResult :=
  transact (newStatements change name name baseline) (.done .threw) fun counts =>
    if counts.getD 0 0 ≠ 1 then settleDuplicateHighWater change
    else if counts.getD 1 0 ≠ 1 then .done .threw
    else stagedOrDuplicate counts

def openBatch (policyVersion : Int) (s : Store) : Option Batch :=
  s.batches.find? fun batch => decide (batch.policyVersion = policyVersion) && batch.isOpen

def stageInto (state : Option ObjectState) : Program Store StageResult :=
  .read (.done .threw) fun first => match openBatch change.target.policyVersion first with
    | none => writeNew name change (baselines change state none)
    | some batch => .read (.done .threw) fun second =>
      let existing := (batchAt second batch.id).bind fun found => found.item change.key
      if existing.isNone ∧ maxItems ≤ batch.items.length then
        .call (sealBatch batch.id) (fun _ => writeNew name change (baselines change state none)) (.done .threw)
      else writeOpen name change batch.id (baselines change state existing)

def stageAuthenticatedDeliveryChangeCandidate : Program Store StageResult :=
  .read (.done .threw) fun s =>
    let state := s.ledger change.key
    match path change state with
    | .duplicate => .done .duplicate
    | .conflict => .done .threw
    | .settle => settleDuplicateHighWater change
    | .stage => stageInto name change state
end

def stageChange (target : Target) (input : StageInput) : Option Change :=
  if !hasStageTargetShape target || decide (input.key = []) then none
  else match durableReceiptOrdering input,input.eventAt with
    | some receipt,some observedAt =>
      let version := cleanVersion input.objectVersion
      if input.present && version.isNone then none
      else if !modeIncludes target.changeMode input.present || !target.r2Prefix.isPrefixOf input.key then none
      else some ⟨target,input.key,input.present,version,observedAt,receipt⟩
    | _,_ => none

def stageAuthenticatedDeliveryChangeForTarget (name : Nat) (target : Target) (input : StageInput) : Program Store StageResult :=
  match stageChange target input with
  | none => .done .suppressed
  | some change => .read (.done .threw) fun s =>
    if change.authorized s then stageAuthenticatedDeliveryChangeCandidate name change else .done .suppressed

def recordAuthenticatedDeliveryObjectChange (name : Nat) (key : Text) (present : Bool) (objectVersion : Option Text)
    (eventAt : Option Nat) : Program Store StageResult :=
  match eventAt with
  | none => .done .suppressed
  | some observedAt =>
    let version := cleanVersion objectVersion
    if decide (key = []) || (present && version.isNone) then .done .suppressed
    else .read (.done .threw) fun s => match s.selected key present observedAt with
      | none => .done .suppressed
      | some target =>
        if modeIncludes target.changeMode present then
          stageAuthenticatedDeliveryChangeCandidate name ⟨target,key,present,version,observedAt,none⟩
        else .done .suppressed
end LedgeTopOps.DeliveryChanges
