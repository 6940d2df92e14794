import LedgeTopOps.DeliveryStaging
import LedgeTopOps.WindowedNotices

namespace LedgeTopOps.DeliveryChanges
open List StepRuns AtomicPrograms SqlBatches ClosedCodec WorkspacePublication NetLedger WindowedNotices Function

-- One recipient over time. `repeats`: for the items of the open batch, whether the event that opened it repeated the
-- presence in the ledger.
structure Recipient where
  store : Store
  last : Nat
  repeats : Text → Bool

inductive Occurrence where
  | deliver (name : Nat) (input : StageInput)
  | sealing

def sealOpen (s : Store) : Store :=
  { s with batches := s.batches.map fun batch => if batch.isOpen then { batch with isSealed := true } else batch }

def netChange (item : Item) : Option Bool := if item.currentPresent = item.baselinePresent then none else some item.currentPresent

def announced (batch : Batch) (object : Text) : List Bool :=
  if batch.isSealed && decide (batch.status ≠ .cancelled) then
    (batch.items.filter fun item => decide (item.object = object)).filterMap netChange
  else []

def notices (batches : List Batch) (object : Text) : List Bool := batches.flatMap fun batch => announced batch object

-- Told as added at least once and in no open batch: last told as added if and only
-- if the ledger says it is present.
def RightlyTold (s : Store) : Prop :=
  ∀ object, true ∈ notices s.batches object → (∀ batch ∈ s.batches, batch.isOpen = true → batch.item object = none) →
    ((notices s.batches object).getLast? = some true ↔ ∃ row, s.ledger object = some row ∧ row.present = true)

def entryOf (item : Item) : Entry Text := ⟨item.object,item.baselinePresent,item.currentPresent⟩
def window (batches : List Batch) : List (Entry Text) := (batches.filter Batch.isOpen).flatMap fun batch => batch.items.map entryOf

def view (recipient : Recipient) : Notices Text where
  told := notices recipient.store.batches
  window := window recipient.store.batches
  recorded object := (recipient.store.ledger object).map ObjectState.present
  repeats := recipient.repeats

def full (target : Target) (s : Store) (object : Text) : Bool :=
  (openBatch target.policyVersion s).any fun batch => (batch.item object).isNone && decide (maxItems ≤ batch.items.length)

def changes (target : Target) (recipient : Recipient) : Occurrence → List (Move Text)
  | .sealing => [.close]
  | .deliver _ input => match stageChange target input with
    | none => []
    | some change =>
      if path change (recipient.store.ledger change.key) = .stage then
        if full target recipient.store change.key then [.close,.report change.key change.present]
        else [.report change.key change.present]
      else []

def repeatsAfter (recipient : Recipient) (change : Change) : Text → Bool :=
  if path change (recipient.store.ledger change.key) = .stage ∧ of change.key (view recipient).window = [] then
    update recipient.repeats change.key
      (decide ((recipient.store.ledger change.key).map ObjectState.present = some change.present))
  else recipient.repeats

def advance (target : Target) (recipient : Recipient) : Occurrence → Recipient
  | .sealing => { recipient with store := sealOpen recipient.store }
  | .deliver name input => match stageChange target input with
    | none => recipient
    | some change => ⟨((stageAuthenticatedDeliveryChangeForTarget name target input).run recipient.store).1,
      (change.receipt.map Receipt.acceptedSequence).getD recipient.last,repeatsAfter recipient change⟩

-- Accepted events come in increasing sequence, each with a UUID of its own.
def Enabled (target : Target) (recipient : Recipient) : Occurrence → Prop
  | .sealing => True
  | .deliver name input => (∀ batch ∈ recipient.store.batches, batch.id ≠ name) ∧ ∃ change receipt,
    stageChange target input = some change ∧ change.receipt = some receipt ∧ recipient.last < receipt.acceptedSequence

-- No window closes on an object told as added, whose first event in the window repeated what the ledger said, and
-- which is back at the opposite.
def Balanced (target : Target) (recipient : Recipient) (occurrence : Occurrence) : Prop :=
  Admitted Notices.advance Admits (view recipient) (changes target recipient occurrence)

section
theorem entries_putItem (new : entryOf fresh = ⟨change.key,!change.present,change.present⟩ ∨ (items.any fun item => decide (item.object = change.key))) :
    (putItem change token fresh items).map entryOf = NetLedger.put (items.map entryOf) change.key change.present := by
  unfold putItem NetLedger.put
  have known : ((items.map entryOf).any fun entry => decide (entry.object = change.key)) = items.any fun item => decide (item.object = change.key) := by
    rw [any_map]
    rfl
  rw [known]
  split
  · rw [map_map,map_map]
    apply map_congr_left
    intro item _
    show entryOf (if item.object = change.key then updateItem change token item else item) =
      if item.object = change.key then { entryOf item with current := change.present } else entryOf item
    split
    · rfl
    rfl
  rename_i missing
  rcases new with shape | there
  · rw [map_append,map_singleton,shape]
  exact absurd there missing

theorem counts_even (items : List Item) : (counted items false true = 0 ∧ counted items true false = 0) ↔ even (items.map entryOf) := by
  unfold counted even
  rw [length_eq_zero_iff,length_eq_zero_iff,filter_eq_nil_iff,filter_eq_nil_iff,all_eq_true]
  constructor
  · intro both _ mem
    obtain ⟨item,stored,rfl⟩ := mem_map.mp mem
    have gained := both.1 item stored
    have lost := both.2 item stored
    show (item.baselinePresent == item.currentPresent) = true
    revert gained lost
    cases item.baselinePresent <;> cases item.currentPresent <;> decide
  intro all
  refine ⟨fun item stored => ?_,fun item stored => ?_⟩
  all_goals
    have same := all (entryOf item) (mem_map_of_mem stored)
    change (item.baselinePresent == item.currentPresent) = true at same
    revert same
    cases item.baselinePresent <;> cases item.currentPresent <;> decide

theorem putItem_touched (fresh_token : fresh.token = token) : ((putItem change token fresh items).any fun item => decide (item.token = token)) := by
  unfold putItem
  split
  · rename_i there
    obtain ⟨item,mem,same⟩ := any_eq_true.mp there
    refine any_eq_true.mpr ⟨updateItem change token item,mem_map.mpr ⟨item,mem,?_⟩,decide_eq_true rfl⟩
    exact if_pos (of_decide_eq_true same)
  exact any_eq_true.mpr ⟨fresh,mem_append_right _ (mem_singleton_self _),decide_eq_true fresh_token⟩
end

section

theorem booked_items (token : Nat) (row : Batch) : (cancelBatch (countBatch token row)).items = row.items :=
  (cancelBatch_reshaped _).items.trans (countBatch_reshaped token row).items

theorem booked_id (token : Nat) (row : Batch) : (cancelBatch (countBatch token row)).id = row.id :=
  (cancelBatch_reshaped _).id.trans (countBatch_reshaped token row).id

theorem booked_policyVersion (token : Nat) (row : Batch) : (cancelBatch (countBatch token row)).policyVersion = row.policyVersion :=
  (cancelBatch_reshaped _).policyVersion.trans (countBatch_reshaped token row).policyVersion

theorem booked_open (isOpen : row.isOpen) (there : touched token row) : (cancelBatch (countBatch token row)).isOpen = !even (row.items.map entryOf) ∧
      ∀ object, announced (cancelBatch (countBatch token row)) object = [] := by
  have counts : countBatch token row = { row with addedCount := counted row.items false true, removedCount := counted row.items true false } := by
    unfold countBatch
    rw [isOpen,there]
    rfl
  have still : (countBatch token row).isOpen := by
    rw [counts]
    exact isOpen
  have zero : unchanged (countBatch token row) = even (row.items.map entryOf) := by
    rw [Bool.eq_iff_iff,←counts_even]
    unfold unchanged
    rw [still,counts]
    simp
  unfold cancelBatch
  rw [zero]
  cases even (row.items.map entryOf) with
  | true => exact ⟨rfl,fun _ => rfl⟩
  | false =>
    refine ⟨still,fun object => ?_⟩
    have unsealed : (countBatch token row).isSealed = false := by
      unfold Batch.isOpen at still
      simp only [Bool.and_eq_true,Bool.not_eq_true'] at still
      exact still.2
    show announced (countBatch token row) object = []
    unfold announced
    rw [unsealed]
    rfl

theorem announced_open (isOpen : row.isOpen) (object : Text) : announced row object = [] := by
  unfold Batch.isOpen at isOpen
  simp only [Bool.and_eq_true,Bool.not_eq_true'] at isOpen
  unfold announced
  rw [isOpen.2]
  rfl

theorem modify_last {id : Nat} {update : Batch → Batch} (apart : ∀ one ∈ front, one.id ≠ id) (own : row.id = id) :
    modify id update (front++[row]) = front++[update row] := by
  unfold modify
  rw [map_append,map_singleton,if_pos own]
  congr 1
  conv => rhs; rw [←map_id front]
  apply map_congr_left
  intro one mem
  exact if_neg (apart one mem)
end

structure Standing (target : Target) (s : Store) : Prop where
  policyVersion : s.policyVersion = target.policyVersion
  authority : ∀ present observedAt key, s.authority target present observedAt key = true

structure Written (change : Change) (front : List Batch) (row : Batch) (s t : Store) : Prop where
  ledger : t.ledger = update s.ledger change.key (some (ledgerRow change (s.ledger change.key)))
  policyVersion : t.policyVersion = s.policyVersion
  authority : t.authority = s.authority
  batches : ∃ last, t.batches = front++[last] ∧ last.id = row.id ∧ last.policyVersion = row.policyVersion ∧
    last.items.map entryOf = NetLedger.put (row.items.map entryOf) change.key change.present ∧
    last.isOpen = !even (last.items.map entryOf) ∧ ∀ object, announced last object = []

variable {change : Change}

theorem Standing.authorized (standing : Standing target s) (aimed : change.target = target) : change.authorized s := by
  unfold Change.authorized
  rw [aimed,standing.policyVersion,standing.authority]
  simp

theorem auditStaged_run (batchId token : Nat) (s : Store) (changes : Nat) :
    ∃ staged count, auditStaged batchId token s changes = some ({ s with staged := staged },count) := by
  unfold auditStaged
  split
  · exact ⟨_,_,rfl⟩
  exact ⟨s.staged,0,rfl⟩

theorem bookkeeping_run (batchId token : Nat) (s : Store) (changes : Nat) : ∃ staged counts, batch (bookkeeping batchId token) s changes = some ({ s with
      batches := modify batchId (fun row => cancelBatch (countBatch token row)) s.batches, staged := staged },counts) := by
  have twice : modify batchId cancelBatch (modify batchId (countBatch token) s.batches) =
      modify batchId (fun row => cancelBatch (countBatch token row)) s.batches := by
    unfold modify
    rw [map_map]
    apply map_congr_left
    intro row _
    by_cases own : row.id = batchId
    · have kept : (countBatch token row).id = batchId := (countBatch_reshaped token row).id.trans own
      simp only [comp_apply,own,if_true,kept]
    simp only [comp_apply,own,if_false]
  obtain ⟨staged,count,audited⟩ := auditStaged_run batchId token { s with batches := modify batchId cancelBatch (modify batchId (countBatch token) s.batches) }
    ((modify batchId (countBatch token) s.batches).filter fun row => decide (row.id = batchId) && unchanged row).length
  rw [←twice]
  refine ⟨staged,_,batch_cons.mpr ⟨_,_,_,rfl,batch_cons.mpr ⟨_,_,[count],rfl,?_,rfl⟩,rfl⟩⟩
  exact batch_cons.mpr ⟨_,_,_,audited,rfl,rfl⟩

theorem written_by (layout : s.batches = front++[row]) (own : row.id = batchId) (apart : ∀ one ∈ front, one.id ≠ batchId) (isOpen : row.isOpen)
    (based : (row.items.any fun item => decide (item.object = change.key)) ∨ baseline.1 = !change.present) (changes : Nat) :
    ∃ t counts, batch (bookkeeping batchId name) (put change batchId name baseline s) changes = some (t,counts) ∧ Written change front row s t := by
  obtain ⟨_,counts,done⟩ := bookkeeping_run batchId name (put change batchId name baseline s) changes
  refine ⟨_,counts,done,rfl,rfl,rfl,?_⟩
  have placed : (put change batchId name baseline s).batches =
      front++[{ row with items := putItem change name (newItem change name baseline.1 baseline.2) row.items }] := by
    show modify _ _ s.batches = _
    rw [layout,modify_last apart own]
  refine ⟨cancelBatch (countBatch name { row with items := putItem change name (newItem change name baseline.1 baseline.2) row.items }),
      ?_,(booked_id name _).trans rfl,(booked_policyVersion name _).trans rfl,?_,?_⟩
  · show modify _ _ (put change batchId name baseline s).batches = _
    rw [placed]
    exact modify_last apart own
  · rw [booked_items]
    apply entries_putItem
    rcases based with there | guessed
    · exact .inr there
    left
    unfold newItem entryOf
    rw [guessed]
  rw [booked_items]
  exact booked_open isOpen (putItem_touched rfl)

theorem writeLedger_run {gate : Store → Nat → Bool} {count : Nat} (gated : gate s count)
    (allowed : (s.ledger change.key).all (sequencedLedgerWriteAllowed change)) : writeLedger change gate s count =
      some ({ s with ledger := update s.ledger change.key (some (ledgerRow change (s.ledger change.key))) },1) := by
  exact if_pos (Bool.and_eq_true_iff.mpr ⟨gated,allowed⟩)

theorem writeItem_run (there : row ∈ s.batches) (own : row.id = batchId) :
    writeItem change batchId name baseline.1 baseline.2
      { s with ledger := update s.ledger change.key (some (ledgerRow change (s.ledger change.key))) } 1 =
        some (put change batchId name baseline s,1) := by
  have found : (s.batches.any fun one => decide (one.id = batchId)) :=
    any_eq_true.mpr ⟨row,there,decide_eq_true own⟩
  unfold writeItem guarded
  show Option.map _ (if (s.batches.any fun one => decide (one.id = batchId)) = true then _ else _) = _
  rw [if_pos found]
  rfl

theorem writeOpen_run (authorized : change.authorized s) (layout : s.batches = front++[row])
    (apart : ∀ one ∈ front, one.id ≠ row.id) (isOpen : row.isOpen) (room : (row.item change.key).isSome ∨ row.items.length < maxItems)
    (allowed : (s.ledger change.key).all (sequencedLedgerWriteAllowed change))
    (based : (row.items.any fun item => decide (item.object = change.key)) ∨ baseline.1 = !change.present) :
    ∃ t, (writeOpen name change row.id baseline).run s = (t,.staged) ∧ Written change front row s t := by
  have ends : ∃ t counts, batch (bookkeeping row.id name) (put change row.id name baseline s) 1 = some (t,counts) ∧
      Written change front row s t := written_by layout rfl apart isOpen based 1
  obtain ⟨t,counts,booked,written⟩ := ends
  refine ⟨t,?_,written⟩
  have mem : row ∈ s.batches := by
    rw [layout]
    exact mem_append_right _ (mem_singleton_self _)
  have fenced : fence change row.id s 0 = some (s,1) := by
    unfold fence
    dsimp only
    rw [if_pos]
    refine any_eq_true.mpr ⟨row,mem,?_⟩
    rw [decide_eq_true rfl,isOpen,authorized]
    simpa using room
  have ledger : writeLedger change (fun _ changes => decide (changes = 1)) s 1 = some (_,1) :=
    writeLedger_run (decide_eq_true rfl) allowed
  have item : writeItem change row.id name baseline.1 baseline.2 { s with
    ledger := update s.ledger change.key (some (ledgerRow change (s.ledger change.key))) } 1 = some (_,1) :=
      writeItem_run mem rfl
  have done : batch (openStatements change row.id name baseline) s 0 = some (t,1 :: 1 :: 1 :: counts) :=
    batch_cons.mpr ⟨_,_,_,fenced,batch_cons.mpr ⟨_,_,_,ledger,batch_cons.mpr ⟨_,_,_,item,booked,rfl⟩,rfl⟩,rfl⟩
  exact run_transact (.done StageResult.threw) _ done

def emptyBatch (name : Nat) (policyVersion : Int) : Batch := ⟨name,policyVersion,.pending,false,0,0,[]⟩

theorem writeNew_run (authorized : change.authorized s) (closed : ∀ one ∈ s.batches, one.isOpen = false) (apart : ∀ one ∈ s.batches, one.id ≠ name)
    (allowed : (s.ledger change.key).all (sequencedLedgerWriteAllowed change)) (guessed : baseline.1 = !change.present) :
    ∃ t, (writeNew name change baseline).run s = (t,.staged) ∧ Written change s.batches (emptyBatch name change.target.policyVersion) s t := by
  have layout : (withBatch change name s).batches = s.batches++[emptyBatch name change.target.policyVersion] := rfl
  have ends : ∃ t counts, batch (bookkeeping name name) (put change name name baseline (withBatch change name s)) 1 =
      some (t,counts) ∧ Written change s.batches (emptyBatch name change.target.policyVersion) (withBatch change name s) t :=
    written_by layout rfl apart rfl (.inr guessed) 1
  obtain ⟨t,counts,booked,written⟩ := ends
  refine ⟨t,?_,written.ledger,written.policyVersion,written.authority,written.batches⟩
  have ledger : writeLedger change (fun s _ => change.authorized s) s 0 = some (_,1) := writeLedger_run authorized allowed
  have inserted : insertBatch change name { s with ledger := update s.ledger change.key (some (ledgerRow change (s.ledger change.key))) } 1 =
      some ({ withBatch change name s with
        ledger := update s.ledger change.key (some (ledgerRow change (s.ledger change.key))) },1) := by
    have free : ¬(s.batches.any fun one => decide (one.id = name) || (one.isOpen && decide (one.policyVersion = change.target.policyVersion))) := by
      intro found
      obtain ⟨one,mem,either⟩ := any_eq_true.mp found
      rw [closed one mem] at either
      have own : one.id = name := by simpa using either
      exact apart one mem own
    unfold insertBatch guarded
    rw [if_pos]
    · show Option.map _ (if (s.batches.any fun one => decide (one.id = name) ||
        (one.isOpen && decide (one.policyVersion = change.target.policyVersion))) = true then _ else _) = _
      rw [if_neg free]
      rfl
    · exact authorized
  have item : writeItem change name name baseline.1 baseline.2 { withBatch change name s with
    ledger := update s.ledger change.key (some (ledgerRow change (s.ledger change.key))) } 1 = some (_,1) :=
      writeItem_run (mem_append_right _ (mem_singleton_self _)) rfl
  have done : batch (newStatements change name name baseline) s 0 = some (t,1 :: 1 :: 1 :: counts) :=
    batch_cons.mpr ⟨_,_,_,ledger,batch_cons.mpr ⟨_,_,_,inserted,batch_cons.mpr ⟨_,_,_,item,booked,rfl⟩,rfl⟩,rfl⟩
  exact run_transact (.done StageResult.threw) _ done
end LedgeTopOps.DeliveryChanges
