import LedgeTopOps.DeliveryChanges

namespace LedgeTopOps.DeliveryChanges
open List SqlBatches ClosedCodec WorkspacePublication
open Function (update_of_ne update_self)

structure Accepted where
  key : Text
  present : Bool
  version : Option Text
  provider : Text

structure Reshaped (before after : Batch) : Prop where
  id : after.id = before.id
  policyVersion : after.policyVersion = before.policyVersion
  items : after.items = before.items
  remains : before.isSealed = true → after.isSealed = true
  status : after.isSealed = false → after.status = before.status

section
theorem Reshaped.rfl : Reshaped old old := ⟨Eq.refl _,Eq.refl _,Eq.refl _,fun closed => closed,fun _ => Eq.refl _⟩

theorem Reshaped.unsealed (reshaped : Reshaped old new) (unsealed : new.isSealed = false) : old.isSealed = false := by
  cases closed : old.isSealed with
  | false => rfl
  | true =>
    rw [reshaped.remains closed] at unsealed
    cases unsealed

theorem Reshaped.isOpen (reshaped : Reshaped old new) (isOpen : new.isOpen) : old.isOpen := by
  unfold Batch.isOpen at isOpen ⊢
  simp only [Bool.and_eq_true,decide_eq_true_eq,Bool.not_eq_true'] at isOpen ⊢
  exact ⟨(reshaped.status isOpen.2).symm.trans isOpen.1,reshaped.unsealed isOpen.2⟩

theorem Reshaped.next (first : Reshaped old new) (second : Reshaped new later) : Reshaped old later := by
  refine ⟨second.id.trans first.id,second.policyVersion.trans first.policyVersion,second.items.trans first.items,?_,?_⟩
  · exact fun closed => second.remains (first.remains closed)
  intro unsealed
  rw [second.status unsealed]
  exact first.status (second.unsealed unsealed)
end

theorem forall₂_next {first : α → β → Prop} {second : β → γ → Prop} {third : α → γ → Prop}
    (composed : ∀ x y z, first x y → second y z → third x z) {left : List α} {middle : List β} {right : List γ}
    (one : Forall₂ first left middle) (two : Forall₂ second middle right) : Forall₂ third left right := by
  induction one generalizing right with
  | nil =>
    cases two
    exact .nil
  | cons head _ ih =>
    cases two with
    | cons other rest => exact .cons (composed _ _ _ head other) (ih rest)

structure Passes (before after : Store) : Prop where
  ledger : after.ledger = before.ledger
  policyVersion : after.policyVersion = before.policyVersion
  batches : Forall₂ Reshaped before.batches after.batches

theorem reshaped_all (batches : List Batch) : Forall₂ Reshaped batches batches := by
  exact forall₂_same.mpr fun _ _ => Reshaped.rfl

theorem Passes.rfl : Passes s s := ⟨Eq.refl _,Eq.refl _,reshaped_all _⟩

theorem modify_reshaped {update : Batch → Batch} (each : ∀ batch, Reshaped batch (update batch)) (id : Nat) (batches : List Batch) :
    Forall₂ Reshaped batches (modify id update batches) := by
  refine forall₂_map_right_iff.mpr (forall₂_same.mpr fun batch _ => ?_)
  split
  · exact each batch
  exact Reshaped.rfl

theorem sealBatch_passes (id : Nat) (s : Store) : Passes s (sealBatch id s) := by
  refine ⟨Eq.refl _,Eq.refl _,modify_reshaped (fun batch => ?_) id s.batches⟩
  split
  · exact ⟨Eq.refl _,Eq.refl _,Eq.refl _,fun _ => Eq.refl _,nofun⟩
  exact Reshaped.rfl

theorem Passes.next (first : Passes s t) (second : Passes t u) : Passes s u := by
  refine ⟨second.ledger.trans first.ledger,second.policyVersion.trans first.policyVersion,?_⟩
  have composed : ∀ one two three, Reshaped one two → Reshaped two three → Reshaped one three :=
    fun _ _ _ => Reshaped.next
  exact forall₂_next composed first.batches second.batches

section
variable {relation : α → β → Prop} {left : List α} {right : List β} (pairs : Forall₂ relation left right)
include relation left right pairs

theorem forall₂_left (mem : x ∈ left) : ∃ y ∈ right, relation x y := by
  induction pairs with
  | nil => cases mem
  | cons head _ ih =>
    rcases mem_cons.mp mem with rfl | deep
    · exact ⟨_,mem_cons_self ..,head⟩
    obtain ⟨y,there,related⟩ := ih deep
    exact ⟨y,mem_cons_of_mem _ there,related⟩

theorem forall₂_right (mem : y ∈ right) : ∃ x ∈ left, relation x y := by
  obtain ⟨x,there,related⟩ := forall₂_left pairs.flip mem
  exact ⟨x,there,related⟩
end

def Current (ledger : Text → Option ObjectState) (item : Item) : Prop :=
  ∃ row, ledger item.object = some row ∧ row.present = item.currentPresent ∧ row.version = item.currentVersion

def Carries (accepted : Accepted) (object : Text) (row : ObjectState) : Prop :=
  accepted.key = object ∧ row.present = accepted.present ∧ row.version = accepted.version ∧
    row.provider = some accepted.provider

structure Sound (accepted : Nat → Accepted) (s : Store) : Prop where
  ids : (s.batches.map Batch.id).Nodup
  single : ∀ one ∈ s.batches, ∀ other ∈ s.batches, one.isOpen = true → other.isOpen = true →
    one.policyVersion = other.policyVersion → one = other
  pending : ∀ batch ∈ s.batches, batch.isSealed = false → batch.status = .pending
  bounded : ∀ batch ∈ s.batches, batch.isSealed = false → batch.items.length ≤ maxItems
  objects : ∀ batch ∈ s.batches, (batch.items.map Item.object).Nodup
  versions : ∀ batch ∈ s.batches, batch.policyVersion ≤ s.policyVersion
  current : ∀ batch ∈ s.batches, batch.isOpen = true → batch.policyVersion = s.policyVersion →
    ∀ item ∈ batch.items, Current s.ledger item
  carries : ∀ object row sequence, s.ledger object = some row → row.sequence = some sequence →
    Carries (accepted sequence) object row

section
theorem reshaped_ids (pairs : Forall₂ Reshaped older newer) : newer.map Batch.id = older.map Batch.id := by
  induction pairs with
  | nil => rfl
  | cons head _ ih => rw [map_cons,map_cons,head.id,ih]

theorem Sound.reshaped (sound : Sound accepted s) (ledger : t.ledger = s.ledger) (policy : s.policyVersion ≤ t.policyVersion)
    (pairs : Forall₂ Reshaped s.batches t.batches) : Sound accepted t := by
  refine ⟨?_,?_,?_,?_,?_,?_,?_,?_⟩
  · rw [reshaped_ids pairs]
    exact sound.ids
  · intro one mem other there first second same
    obtain ⟨left,stored,reshaped⟩ := forall₂_right pairs mem
    obtain ⟨right,kept,again⟩ := forall₂_right pairs there
    have equal : left = right := by
      refine sound.single left stored right kept (reshaped.isOpen first) (again.isOpen second) ?_
      rw [←reshaped.policyVersion,←again.policyVersion,same]
    have ids : one.id = other.id := by rw [reshaped.id,again.id,equal]
    have distinct : (t.batches.map Batch.id).Nodup := by
      rw [reshaped_ids pairs]
      exact sound.ids
    exact inj_on_of_nodup_map distinct mem there ids
  · intro _ mem unsealed
    obtain ⟨old,stored,reshaped⟩ := forall₂_right pairs mem
    rw [reshaped.status unsealed]
    exact sound.pending old stored (reshaped.unsealed unsealed)
  · intro _ mem unsealed
    obtain ⟨old,stored,reshaped⟩ := forall₂_right pairs mem
    rw [reshaped.items]
    exact sound.bounded old stored (reshaped.unsealed unsealed)
  · intro _ mem
    obtain ⟨old,stored,reshaped⟩ := forall₂_right pairs mem
    rw [reshaped.items]
    exact sound.objects old stored
  · intro _ mem
    obtain ⟨old,stored,reshaped⟩ := forall₂_right pairs mem
    rw [reshaped.policyVersion]
    exact (sound.versions old stored).trans policy
  · intro batch mem isOpen version
    obtain ⟨old,stored,reshaped⟩ := forall₂_right pairs mem
    rw [reshaped.items,ledger]
    have bound := sound.versions old stored
    rw [reshaped.policyVersion] at version
    exact sound.current old stored (reshaped.isOpen isOpen) (by omega)
  rw [ledger]
  exact sound.carries

theorem Passes.sound (passes : Passes s t) (sound : Sound accepted s) : Sound accepted t :=
  sound.reshaped passes.ledger (Int.le_of_eq passes.policyVersion.symm) passes.batches
end

def put (change : Change) (batchId token : Nat) (baseline : Bool × Option Text) (s : Store) : Store :=
  { s with
    ledger := Function.update s.ledger change.key (some (ledgerRow change (s.ledger change.key)))
    batches := modify batchId (fun batch =>
      { batch with items := putItem change token (newItem change token baseline.1 baseline.2) batch.items }) s.batches }

structure Writable (change : Change) (batchId : Nat) (s : Store) : Prop where
  room : ∃ batch ∈ s.batches, batch.id = batchId ∧ batch.isOpen = true ∧ batch.policyVersion = s.policyVersion ∧
    ((batch.item change.key).isSome = true ∨ batch.items.length < maxItems)
  allowed : (s.ledger change.key).all (sequencedLedgerWriteAllowed change) = true

def Told (accepted : Nat → Accepted) (change : Change) : Prop :=
  ∀ receipt, change.receipt = some receipt → accepted receipt.acceptedSequence =
    ⟨change.key,change.present,change.version,receipt.providerObjectVersion⟩

theorem stageChange_some (made : stageChange target input = some change) : change.target = target ∧ change.key = input.key ∧ change.present = input.present ∧
      change.version = cleanVersion input.objectVersion ∧ durableReceiptOrdering input = some change.receipt := by
  unfold stageChange at made
  split at made
  · cases made
  split at made
  · rename_i receipt observedAt ordering _
    dsimp only at made
    split at made
    · cases made
    split at made
    · cases made
    cases made
    exact ⟨rfl,rfl,rfl,rfl,ordering⟩
  cases made

section
theorem putItem_mem (mem : item ∈ putItem change token fresh items) (new : fresh.object = change.key)
    (made : fresh.currentPresent = change.present ∧ fresh.currentVersion = change.version) :
    (item.object = change.key ∧ item.currentPresent = change.present ∧ item.currentVersion = change.version) ∨ (item.object ≠ change.key ∧ item ∈ items) := by
  unfold putItem at mem
  split at mem
  · obtain ⟨old,stored,rfl⟩ := mem_map.mp mem
    split
    · rename_i same
      exact .inl ⟨same,rfl,rfl⟩
    rename_i different
    exact .inr ⟨different,stored⟩
  rename_i missing
  rcases mem_snoc.mp mem with old | rfl
  · refine .inr ⟨fun same => missing ?_,old⟩
    exact any_eq_true.mpr ⟨item,old,decide_eq_true same⟩
  exact .inl ⟨new,made⟩

theorem putItem_objects (new : fresh.object = change.key) : (putItem change token fresh items).map Item.object =
      if items.any fun item => decide (item.object = change.key) then items.map Item.object else items.map Item.object++[change.key] := by
  unfold putItem
  split
  · rw [map_map]
    apply map_congr_left
    intro item _
    show (if item.object = change.key then updateItem change token item else item).object = item.object
    split
    · rfl
    rfl
  rw [map_append,map_singleton,new]

theorem putItem_nodup (new : fresh.object = change.key) (distinct : (items.map Item.object).Nodup) :
    ((putItem change token fresh items).map Item.object).Nodup := by
  rw [putItem_objects new]
  split
  · exact distinct
  rename_i missing
  refine distinct.append (nodup_singleton _) ?_
  intro _ old last
  cases mem_singleton.mp last
  obtain ⟨item,mem,same⟩ := mem_map.mp old
  exact missing (any_eq_true.mpr ⟨item,mem,decide_eq_true same⟩)

theorem putItem_length (room : (items.find? fun item => decide (item.object = change.key)).isSome ∨ items.length < maxItems)
    (bounded : items.length ≤ maxItems) : (putItem change token fresh items).length ≤ maxItems := by
  unfold putItem
  split
  · rw [length_map]
    exact bounded
  rename_i missing
  rw [length_append,length_singleton]
  rcases room with there | free
  · rw [List.find?_isSome] at there
    exact absurd (any_eq_true.mpr there) missing
  exact free
end

structure Effects (receipt : Option Receipt) (before after : Store) : Prop where
  advances : ∀ object row sequence, before.ledger object = some row → row.sequence = some sequence →
    ∃ later reached, after.ledger object = some later ∧ later.sequence = some reached ∧ sequence ≤ reached ∧
      (receipt = none → later = row)
  own : ∀ object row sequence, after.ledger object = some row → row.sequence = some sequence →
    (∃ old, before.ledger object = some old ∧ old.sequence = some sequence) ∨ ∃ held, receipt = some held ∧ held.acceptedSequence = sequence
  closed : ∀ batch ∈ before.batches, batch.isSealed = true →
    ∃ later ∈ after.batches, later.id = batch.id ∧ later.isSealed = true ∧ later.items = batch.items

theorem Effects.reshaped (ledger : t.ledger = s.ledger) (pairs : Forall₂ Reshaped s.batches t.batches) : Effects receipt s t := by
  refine ⟨?_,?_,?_⟩
  · intro _ row sequence stored held
    exact ⟨row,sequence,by rw [ledger,stored],held,Nat.le_refl _,fun _ => rfl⟩
  · intro _ row _ stored held
    rw [ledger] at stored
    exact .inl ⟨row,stored,held⟩
  intro _ mem closed
  obtain ⟨later,there,reshaped⟩ := forall₂_left pairs mem
  exact ⟨later,there,reshaped.id,reshaped.remains closed,reshaped.items⟩

theorem Effects.row {receipt : Option Receipt} {key : Text} {row : ObjectState} (ledger : t.ledger = Function.update s.ledger key (some row))
    (advances : ∀ old sequence, s.ledger key = some old → old.sequence = some sequence →
      ∃ held, receipt = some held ∧ row.sequence = some held.acceptedSequence ∧ sequence ≤ held.acceptedSequence)
    (own : ∀ sequence, row.sequence = some sequence → ∃ held, receipt = some held ∧ held.acceptedSequence = sequence)
    (closed : ∀ batch ∈ s.batches, batch.isSealed → ∃ later ∈ t.batches, later.id = batch.id ∧ later.isSealed ∧ later.items = batch.items) :
    Effects receipt s t := by
  refine ⟨?_,?_,closed⟩
  · intro object old sequence stored held
    by_cases same : object = key
    · subst same
      obtain ⟨own,given,reached,ordered⟩ := advances old sequence stored held
      refine ⟨row,own.acceptedSequence,?_,reached,ordered,fun missing => ?_⟩
      · rw [ledger,update_self]
      rw [given] at missing
      cases missing
    refine ⟨old,sequence,?_,held,Nat.le_refl _,fun _ => rfl⟩
    rw [ledger,update_of_ne same,stored]
  intro object new sequence stored held
  by_cases same : object = key
  · subst same
    rw [ledger,update_self] at stored
    cases stored
    exact .inr (own sequence held)
  rw [ledger,update_of_ne same] at stored
  exact .inl ⟨new,stored,held⟩

section
variable {change : Change} {batchId token : Nat} {baseline : Bool × Option Text} {s : Store}

theorem put_mem {batch : Batch} (mem : batch ∈ (put change batchId token baseline s).batches) :
    ∃ old ∈ s.batches, batch.id = old.id ∧ batch.policyVersion = old.policyVersion ∧ batch.status = old.status ∧
      batch.isSealed = old.isSealed ∧ ((old.id ≠ batchId ∧ batch.items = old.items) ∨ (old.id = batchId ∧
        batch.items = putItem change token (newItem change token baseline.1 baseline.2) old.items)) := by
  obtain ⟨old,stored,rfl⟩ := mem_map.mp mem
  refine ⟨old,stored,?_⟩
  split
  · rename_i same
    exact ⟨rfl,rfl,rfl,rfl,.inr ⟨same,rfl⟩⟩
  rename_i different
  exact ⟨rfl,rfl,rfl,rfl,.inl ⟨different,rfl⟩⟩

theorem put_ids : (put change batchId token baseline s).batches.map Batch.id = s.batches.map Batch.id := by
  show (map _ (map _ _)) = _
  rw [map_map]
  apply map_congr_left
  intro batch _
  show (if batch.id = batchId then _ else batch).id = batch.id
  split
  · rfl
  rfl

theorem ledgerRow_carries {sequence : Nat} (told : Told accepted change) (allowed : (s.ledger change.key).all (sequencedLedgerWriteAllowed change))
    (held : (ledgerRow change (s.ledger change.key)).sequence = some sequence) :
    ∃ receipt, change.receipt = some receipt ∧ receipt.acceptedSequence = sequence ∧
      Carries (accepted sequence) change.key (ledgerRow change (s.ledger change.key)) := by
  unfold ledgerRow at held ⊢
  cases given : change.receipt with
  | some receipt =>
    simp only [given] at held
    cases held
    refine ⟨receipt,rfl,rfl,?_⟩
    rw [told receipt given]
    exact ⟨rfl,rfl,rfl,rfl⟩
  | none =>
    simp only [given] at held
    obtain ⟨_,stored,own⟩ := Option.bind_eq_some_iff.mp held
    unfold sequencedLedgerWriteAllowed at allowed
    simp [stored,given,own] at allowed

section
variable (sound : Sound accepted s) (told : Told accepted change) (writable : Writable change batchId s)
include sound told writable

theorem put_sound : Sound accepted (put change batchId token baseline s) := by
  obtain ⟨target,there,named,isOpen,version,room⟩ := writable.room
  have only : ∀ old ∈ s.batches, old.id = batchId → old = target := by
    intro _ mem same
    exact inj_on_of_nodup_map sound.ids mem there (same.trans named.symm)
  have opened : ∀ {old batch : Batch}, batch.status = old.status → batch.isSealed = old.isSealed → batch.isOpen = old.isOpen := by
    intro _ _ status closed
    unfold Batch.isOpen
    rw [status,closed]
  refine ⟨?_,?_,?_,?_,?_,?_,?_,?_⟩
  · rw [put_ids]
    exact sound.ids
  · intro _ mem _ present first second same
    obtain ⟨left,stored,leftId,leftVersion,leftStatus,leftSealed,-⟩ := put_mem mem
    obtain ⟨right,kept,rightId,rightVersion,rightStatus,rightSealed,-⟩ := put_mem present
    rw [opened leftStatus leftSealed] at first
    rw [opened rightStatus rightSealed] at second
    have equal := sound.single left stored right kept first second (by rw [←leftVersion,←rightVersion,same])
    have distinct : ((put change batchId token baseline s).batches.map Batch.id).Nodup := by
      rw [put_ids]
      exact sound.ids
    exact inj_on_of_nodup_map distinct mem present (by rw [leftId,rightId,equal])
  · intro _ mem unsealed
    obtain ⟨old,stored,-,-,status,closed,-⟩ := put_mem mem
    rw [status]
    exact sound.pending old stored (closed ▸ unsealed)
  · intro _ mem unsealed
    obtain ⟨old,stored,-,-,-,closed,items⟩ := put_mem mem
    have bound := sound.bounded old stored (closed ▸ unsealed)
    rcases items with ⟨-,same⟩ | ⟨same,items⟩
    · rw [same]
      exact bound
    cases only old stored same
    rw [items]
    exact putItem_length room bound
  · intro _ mem
    obtain ⟨old,stored,-,-,-,-,items⟩ := put_mem mem
    rcases items with ⟨-,same⟩ | ⟨-,items⟩
    · rw [same]
      exact sound.objects old stored
    rw [items]
    exact putItem_nodup rfl (sound.objects old stored)
  · intro _ mem
    obtain ⟨old,stored,-,same,-⟩ := put_mem mem
    rw [same]
    exact sound.versions old stored
  · intro _ mem still current item held
    obtain ⟨old,stored,-,sameVersion,status,closed,items⟩ := put_mem mem
    rw [opened status closed] at still
    have equal : old = target := by
      apply sound.single old stored target there still isOpen
      rw [version,←sameVersion]
      exact current
    subst equal
    rcases items with ⟨different,-⟩ | ⟨-,items⟩
    · exact absurd named different
    rw [items] at held
    rcases putItem_mem held rfl ⟨rfl,rfl⟩ with ⟨object,present,last⟩ | ⟨different,kept⟩
    · refine ⟨ledgerRow change (s.ledger change.key),?_,present.symm,last.symm⟩
      show Function.update _ _ _ _ = _
      rw [object,update_self]
    obtain ⟨row,ledger,values⟩ := sound.current old stored still version item kept
    refine ⟨row,?_,values⟩
    show Function.update _ _ _ _ = _
    rw [update_of_ne different,ledger]
  intro object row sequence stored held
  by_cases same : object = change.key
  · subst same
    change Function.update _ _ _ _ = _ at stored
    rw [update_self] at stored
    cases stored
    obtain ⟨_,-,-,carries⟩ := ledgerRow_carries told writable.allowed held
    exact carries
  change Function.update _ _ _ _ = _ at stored
  rw [update_of_ne same] at stored
  exact sound.carries object row sequence stored held

theorem put_effects : Effects change.receipt s (put change batchId token baseline s) := by
  obtain ⟨_,there,named,isOpen,-,-⟩ := writable.room
  have allowed := writable.allowed
  refine Effects.row rfl ?_ ?_ ?_
  · intro _ _ stored held
    rw [stored] at allowed
    unfold sequencedLedgerWriteAllowed at allowed
    cases given : change.receipt with
    | some receipt =>
      refine ⟨receipt,rfl,?_,?_⟩
      · unfold ledgerRow
        rw [given]
      simp only [given,held,Option.all_some,decide_eq_true_eq] at allowed
      exact Nat.le_of_lt allowed
    | none => simp [given,held] at allowed
  · intro _ held
    obtain ⟨receipt,given,same,-⟩ := ledgerRow_carries told allowed held
    exact ⟨receipt,given,same⟩
  intro batch mem closed
  have different : batch.id ≠ batchId := by
    intro same
    cases inj_on_of_nodup_map sound.ids mem there (same.trans named.symm)
    unfold Batch.isOpen at isOpen
    simp [closed] at isOpen
  refine ⟨batch,mem_map.mpr ⟨batch,mem,if_neg different⟩,rfl,closed,rfl⟩
end
end

variable {change : Change} {batchId token : Nat} {baseline : Bool × Option Text} {s t : Store} {changes : Nat} {counts : List Nat}

theorem countBatch_reshaped (token : Nat) (row : Batch) : Reshaped row (countBatch token row) := by
  unfold countBatch
  split
  · exact ⟨rfl,rfl,rfl,fun closed => closed,fun _ => rfl⟩
  exact Reshaped.rfl

theorem cancelBatch_reshaped (row : Batch) : Reshaped row (cancelBatch row) := by
  unfold cancelBatch
  split
  · exact ⟨rfl,rfl,rfl,fun _ => rfl,nofun⟩
  exact Reshaped.rfl

theorem bookkeeping_passes (done : batch (bookkeeping batchId token) s changes = some (t,counts)) : Passes s t := by
  obtain ⟨_,first,_,counted,tail,rfl⟩ := batch_cons.mp done
  obtain ⟨_,second,_,cancelled,further,rfl⟩ := batch_cons.mp tail
  obtain ⟨_,_,_,audited,last,rfl⟩ := batch_cons.mp further
  cases last
  cases counted
  cases cancelled
  have first : Passes s { s with batches := modify batchId (countBatch token) s.batches } :=
    ⟨rfl,rfl,modify_reshaped (countBatch_reshaped token) batchId s.batches⟩
  refine first.next ?_
  have second := modify_reshaped cancelBatch_reshaped batchId (modify batchId (countBatch token) s.batches)
  unfold auditStaged at audited
  split at audited
  · cases audited
    exact ⟨rfl,rfl,second⟩
  cases audited
  exact ⟨rfl,rfl,second⟩

theorem writeItem_batch
    (done : batch (writeItem change batchId token baseline.1 baseline.2 :: bookkeeping batchId token) s changes = some (t,counts)) :
    (changes = 1 ∧ counts.getD 0 0 = 1 ∧ Passes { s with batches := modify batchId (fun row =>
      { row with items := putItem change token (newItem change token baseline.1 baseline.2) row.items }) s.batches } t) ∨
    (changes ≠ 1 ∧ counts.getD 0 0 = 0 ∧ Passes s t) := by
  obtain ⟨_,_,_,written,rest,rfl⟩ := batch_cons.mp done
  rcases guarded_some written with ⟨gate,made,rfl⟩ | ⟨gate,rfl,rfl⟩
  · split at made
    · cases made
      exact .inl ⟨of_decide_eq_true gate,rfl,bookkeeping_passes rest⟩
    · cases made
  exact .inr ⟨of_decide_eq_false gate,rfl,bookkeeping_passes rest⟩

theorem openStatements_batch (done : batch (openStatements change batchId token baseline) s 0 = some (t,counts)) :
    (Passes s t ∧ (counts.getD 0 0 ≠ 1 ∨ counts.getD 1 0 ≠ 1)) ∨
    (counts.getD 0 0 = 1 ∧ counts.getD 1 0 = 1 ∧ counts.getD 2 0 = 1 ∧ change.authorized s ∧ (∃ row ∈ s.batches, row.id = batchId ∧ row.isOpen ∧
        ((row.item change.key).isSome ∨ row.items.length < maxItems)) ∧
      (s.ledger change.key).all (sequencedLedgerWriteAllowed change) ∧ Passes (put change batchId token baseline s) t) := by
  obtain ⟨fenced,count,_,one,tail,rfl⟩ := batch_cons.mp done
  cases one
  obtain ⟨middle,count,_,two,rest,rfl⟩ := batch_cons.mp tail
  rcases guarded_some two with ⟨gate,made,rfl⟩ | ⟨gate,rfl,rfl⟩
  · cases made
    obtain ⟨first,allowed⟩ := Bool.and_eq_true_iff.mp gate
    split at first
    · rename_i found
      rcases writeItem_batch rest with ⟨-,count,passes⟩ | ⟨wrong,-⟩
      · obtain ⟨row,mem,holds⟩ := any_eq_true.mp found
        simp only [Bool.and_eq_true,Bool.or_eq_true,decide_eq_true_eq] at holds
        refine .inr ⟨if_pos found,rfl,count,holds.2,⟨row,mem,holds.1.1.1,holds.1.1.2,holds.1.2⟩,allowed,passes⟩
      exact absurd rfl wrong
    cases first
  rcases writeItem_batch rest with ⟨wrong,-⟩ | ⟨-,-,passes⟩
  · cases wrong
  · exact .inl ⟨passes,.inr nofun⟩

def withBatch (change : Change) (batchId : Nat) (s : Store) : Store :=
  { s with batches := s.batches++[⟨batchId,change.target.policyVersion,.pending,false,0,0,[]⟩] }

theorem newStatements_batch (done : batch (newStatements change batchId token baseline) s 0 = some (t,counts)) : (Passes s t ∧ counts.getD 0 0 ≠ 1) ∨
    (counts.getD 0 0 = 1 ∧ counts.getD 1 0 = 1 ∧ counts.getD 2 0 = 1 ∧ change.authorized s ∧
      (∀ row ∈ s.batches, row.id ≠ batchId ∧ (row.isOpen → row.policyVersion ≠ change.target.policyVersion)) ∧
      (s.ledger change.key).all (sequencedLedgerWriteAllowed change) ∧ Passes (put change batchId token baseline (withBatch change batchId s)) t) := by
  obtain ⟨middle,count,_,one,tail,rfl⟩ := batch_cons.mp done
  obtain ⟨inserted,count,_,two,rest,rfl⟩ := batch_cons.mp tail
  rcases guarded_some one with ⟨gate,made,rfl⟩ | ⟨gate,rfl,rfl⟩
  · cases made
    obtain ⟨authorized,allowed⟩ := Bool.and_eq_true_iff.mp gate
    rcases guarded_some two with ⟨-,made,rfl⟩ | ⟨lost,-⟩
    · split at made
      · cases made
      · rename_i free
        cases made
        rcases writeItem_batch rest with ⟨-,count,passes⟩ | ⟨wrong,-⟩
        · refine .inr ⟨rfl,rfl,count,authorized,fun row mem => ?_,allowed,passes⟩
          have apart : ¬(row.id = batchId ∨ (row.isOpen ∧ row.policyVersion = change.target.policyVersion)) := by
            intro either
            apply free
            refine any_eq_true.mpr ⟨row,mem,?_⟩
            simpa using either
          exact ⟨fun same => apart (.inl same),fun isOpen same => apart (.inr ⟨isOpen,same⟩)⟩
        exact absurd rfl wrong
    have granted : change.authorized s := authorized
    have refused : (decide (1 = 1) && change.authorized s) = false := lost
    simp [granted] at refused
  rcases guarded_some two with ⟨wrong,-⟩ | ⟨-,rfl,rfl⟩
  · simp at wrong
  · rcases writeItem_batch rest with ⟨wrong,-⟩ | ⟨-,-,passes⟩
    · cases wrong
    · exact .inl ⟨passes,nofun⟩
end LedgeTopOps.DeliveryChanges
