import LedgeTopOps.DeliveryNotices
import LedgeTopOps.DeliveryInterleaving

namespace LedgeTopOps.DeliveryChanges
open List StepRuns AtomicPrograms SqlBatches ClosedCodec WorkspacePublication NetLedger WindowedNotices
open Function (update_of_ne update_self)

section
variable {row : Batch} {s t : Store}

theorem notices_concat (front : List Batch) (row : Batch) (object : Text) : notices (front++[row]) object = notices front object++announced row object := by
  unfold notices
  rw [flatMap_append,flatMap_singleton]

theorem window_closed (closed : ∀ one ∈ front, one.isOpen = false) : window front = [] := by
  unfold window
  rw [filter_eq_nil_iff.mpr]
  · rfl
  · intro one mem isOpen
    rw [closed one mem] at isOpen
    cases isOpen

theorem window_concat (closed : ∀ one ∈ front, one.isOpen = false) (row : Batch) :
    window (front++[row]) = if row.isOpen then row.items.map entryOf else [] := by
  have none_ : (front.filter Batch.isOpen) = [] := by
    apply filter_eq_nil_iff.mpr
    intro one mem isOpen
    rw [closed one mem] at isOpen
    cases isOpen
  unfold window
  rw [filter_append,none_,nil_append]
  cases isOpen : row.isOpen with
  | true | false => simp [isOpen]

theorem written_view {n : Notices Text} (written : Written change front row s t)
    (closed : ∀ one ∈ front, one.isOpen = false) (told : n.told = notices front) (items : n.window = row.items.map entryOf)
    (recorded : n.recorded = fun object => (s.ledger object).map ObjectState.present) :
    view ⟨t,last,(n.enter change.key change.present).repeats⟩ = n.report change.key change.present := by
  obtain ⟨final,batches,-,-,entries,isOpen,silent⟩ := written.batches
  have announces : notices t.batches = n.told := by
    funext object
    rw [batches,notices_concat,silent,append_nil,told]
  have records : (fun object => (t.ledger object).map ObjectState.present) = Function.update n.recorded change.key (some change.present) := by
    funext object
    rw [written.ledger,recorded]
    by_cases same : object = change.key
    · rw [same,update_self,update_self]
      rfl
    rw [update_of_ne same,update_of_ne same]
  have entered : (n.enter change.key change.present).window = final.items.map entryOf := by
    rw [entries,←items]
    rfl
  have remains : window t.batches = if final.isOpen then final.items.map entryOf else [] := by
    rw [batches]
    exact window_concat closed final
  have shape : view ⟨t,last,(n.enter change.key change.present).repeats⟩ = ⟨n.told,window t.batches,
      Function.update n.recorded change.key (some change.present),(n.enter change.key change.present).repeats⟩ := by
    unfold view
    rw [announces,records]
  rw [shape,remains,isOpen]
  unfold Notices.report
  rw [entered]
  cases even_ : even (final.items.map entryOf) with
  | true =>
    rw [if_pos rfl,close_even (entered ▸ even_)]
    rfl
  | false =>
    rw [←entered]
    rfl

theorem announced_sealed (isOpen : row.isOpen) (object : Text) :
    announced { row with isSealed := true } object = (of object (row.items.map entryOf)).filterMap notice := by
  unfold Batch.isOpen at isOpen
  simp only [Bool.and_eq_true,decide_eq_true_eq] at isOpen
  have counts : announced { row with isSealed := true } object = (row.items.filter fun item => decide (item.object = object)).filterMap netChange := by
    rw [isOpen.1]
    rfl
  rw [counts]
  unfold of
  rw [filter_map,filterMap_map]
  rfl
end

structure Layout (target : Target) (recipient : Recipient) : Prop where
  standing : Standing target recipient.store
  ids : (recipient.store.batches.map Batch.id).Nodup
  versions : ∀ batch ∈ recipient.store.batches, batch.policyVersion = target.policyVersion
  order : (∀ batch ∈ recipient.store.batches, batch.isOpen = false) ∨ ∃ front row, recipient.store.batches = front++[row] ∧
    (∀ batch ∈ front, batch.isOpen = false) ∧ row.isOpen = true
  sequences : ∀ object row, recipient.store.ledger object = some row →
    ∃ sequence, row.sequence = some sequence ∧ sequence ≤ recipient.last

section
variable {target : Target} {recipient : Recipient}

theorem Layout.apart (layout : Layout target recipient) (shape : recipient.store.batches = front++[row]) : ∀ one ∈ front, one.id ≠ row.id := by
  intro _ mem same
  have distinct := layout.ids
  rw [shape,map_append] at distinct
  exact disjoint_of_nodup_append distinct (mem_map_of_mem mem) (mem_singleton.mpr same)

section
variable {s : Store}
include s

theorem openBatch_closed (closed : ∀ one ∈ s.batches, one.isOpen = false) : openBatch policyVersion s = none := by
  apply find?_eq_none.mpr
  intro one mem
  rw [closed one mem]
  simp

section
variable (shape : s.batches = front++[row])
include shape

theorem openBatch_last (closed : ∀ one ∈ front, one.isOpen = false) (isOpen : row.isOpen) (version : row.policyVersion = policyVersion) :
    openBatch policyVersion s = some row := by
  have none_ : front.find? (fun batch => decide (batch.policyVersion = policyVersion) && batch.isOpen) = none := by
    apply find?_eq_none.mpr
    intro one mem
    rw [closed one mem]
    simp
  unfold openBatch
  rw [shape,find?_append,none_]
  simp [isOpen,version]

theorem batchAt_last (apart : ∀ one ∈ front, one.id ≠ row.id) : batchAt s row.id = some row := by
  have none_ : front.find? (fun batch => decide (batch.id = row.id)) = none := by
    apply find?_eq_none.mpr
    intro one mem same
    exact apart one mem (of_decide_eq_true same)
  unfold batchAt
  rw [shape,find?_append,none_]
  simp

theorem sealOpen_last (closed : ∀ one ∈ front, one.isOpen = false) (isOpen : row.isOpen) : (sealOpen s).batches = front++[{ row with isSealed := true }] := by
  unfold sealOpen
  rw [shape]
  show (front++[row]).map _ = _
  rw [map_append,map_singleton,if_pos isOpen]
  congr 1
  conv => rhs; rw [←map_id front]
  apply map_congr_left
  intro one mem
  rw [closed one mem]
  rfl
end

theorem sealOpen_closed (closed : ∀ one ∈ s.batches, one.isOpen = false) : sealOpen s = s := by
  have same : s.batches.map (fun batch => if batch.isOpen then { batch with isSealed := true } else batch) = s.batches := by
    conv => rhs; rw [←map_id s.batches]
    apply map_congr_left
    intro one mem
    rw [closed one mem]
    rfl
  unfold sealOpen
  rw [same]

theorem sealBatch_last (shape : s.batches = front++[row]) (closed : ∀ one ∈ front, one.isOpen = false)
    (apart : ∀ one ∈ front, one.id ≠ row.id) (isOpen : row.isOpen) : sealBatch row.id s = sealOpen s := by
  have same : modify row.id (fun batch => if batch.isOpen then { batch with isSealed := true } else batch) s.batches = (sealOpen s).batches := by
    rw [sealOpen_last shape closed isOpen,shape,modify_last apart rfl,if_pos isOpen]
  unfold sealBatch
  rw [same]
  rfl
end

theorem sealed_closed (row : Batch) : ({ row with isSealed := true } : Batch).isOpen = false := by
  unfold Batch.isOpen
  simp

theorem sealOpen_none (s : Store) : ∀ one ∈ (sealOpen s).batches, one.isOpen = false := by
  intro batch mem
  obtain ⟨old,-,rfl⟩ := mem_map.mp mem
  split
  · exact sealed_closed old
  rename_i closed
  exact Bool.eq_false_iff.mpr closed

theorem seal_layout (layout : Layout target recipient) : Layout target (advance target recipient .sealing) := by
  have reshaped : Forall₂ Reshaped recipient.store.batches (sealOpen recipient.store).batches := by
    refine forall₂_map_right_iff.mpr (forall₂_same.mpr fun batch _ => ?_)
    split
    · exact ⟨rfl,rfl,rfl,fun _ => rfl,nofun⟩
    exact Reshaped.rfl
  refine ⟨⟨layout.standing.policyVersion,layout.standing.authority⟩,?_,?_,.inl (sealOpen_none _),layout.sequences⟩
  · show ((sealOpen recipient.store).batches.map Batch.id).Nodup
    rw [reshaped_ids reshaped]
    exact layout.ids
  intro _ mem
  obtain ⟨old,stored,same⟩ := forall₂_right reshaped mem
  rw [same.policyVersion]
  exact layout.versions old stored

theorem seal_view (layout : Layout target recipient) : view (advance target recipient .sealing) = (view recipient).close := by
  have told : notices (sealOpen recipient.store).batches = (view recipient).close.told := by
    funext object
    show _ = notices recipient.store.batches object++(of object (window recipient.store.batches)).filterMap notice
    rcases layout.order with closed | ⟨front,row,shape,closed,isOpen⟩
    · rw [sealOpen_closed closed,window_closed closed]
      exact (append_nil _).symm
    rw [sealOpen_last shape closed isOpen,shape,notices_concat,notices_concat,window_concat closed,if_pos isOpen,
      announced_sealed isOpen,announced_open isOpen,append_nil]
  have empty : window (sealOpen recipient.store).batches = [] := window_closed (sealOpen_none _)
  show (⟨notices (sealOpen recipient.store).batches,window (sealOpen recipient.store).batches,_,_⟩ : Notices Text) = _
  rw [told,empty]
  rfl

theorem item_any (row : Batch) (object : Text) : (row.item object).isSome = row.items.any fun item => decide (item.object = object) := by
  rw [Bool.eq_iff_iff]
  exact List.find?_isSome.trans any_eq_true.symm

theorem of_entries (row : Batch) (object : Text) (absent : row.item object = none) : of object (row.items.map entryOf) = [] := by
  apply filter_eq_nil_iff.mpr
  intro _ mem
  obtain ⟨item,stored,rfl⟩ := mem_map.mp mem
  exact find?_eq_none.mp absent item stored

theorem stageInto_none (none_ : openBatch change.target.policyVersion s = none) :
    (stageInto name change state).run s = (writeNew name change (baselines change state none)).run s := by
  unfold stageInto
  rw [Program.run_read,none_]

theorem stageInto_some (found : openBatch change.target.policyVersion s = some row)
    (stored : batchAt s row.id = some row) : (stageInto name change state).run s = if (row.item change.key).isNone ∧ maxItems ≤ row.items.length then
        (writeNew name change (baselines change state none)).run (sealBatch row.id s)
      else (writeOpen name change row.id (baselines change state (row.item change.key))).run s := by
  unfold stageInto
  rw [Program.run_read,found]
  rw [Program.run_read,stored]
  dsimp only [Option.bind_some]
  split
  · rfl
  rfl

structure Placed (target : Target) (recipient : Recipient) (change : Change) (n : Notices Text) (t : Store) (front : List Batch)
    (row : Batch) : Prop where
  written : Written change front row recipient.store t
  closed : ∀ one ∈ front, one.isOpen = false
  ids : ((front++[row]).map Batch.id).Nodup
  versions : ∀ one ∈ front++[row], one.policyVersion = target.policyVersion
  told : n.told = notices front
  items : n.window = row.items.map entryOf

theorem Placed.new (aimed : change.target = target) (written : Written change front (emptyBatch name change.target.policyVersion) recipient.store t)
    (closed : ∀ one ∈ front, one.isOpen = false) (ids : (front.map Batch.id).Nodup) (apart : ∀ one ∈ front, one.id ≠ name)
    (versions : ∀ one ∈ front, one.policyVersion = target.policyVersion) (told : n.told = notices front) (items : n.window = []) :
    Placed target recipient change n t front (emptyBatch name change.target.policyVersion) := by
  refine ⟨written,closed,?_,?_,told,items⟩
  · rw [map_append]
    refine ids.append (nodup_singleton _) ?_
    intro _ old new
    obtain ⟨one,mem,rfl⟩ := mem_map.mp old
    exact apart one mem (mem_singleton.mp new)
  intro one mem
  rcases mem_snoc.mp mem with old | rfl
  · exact versions one old
  show change.target.policyVersion = _
  rw [aimed]

theorem stageInto_placed (name : Nat) (state : Option ObjectState) (layout : Layout target recipient)
    (fresh : ∀ batch ∈ recipient.store.batches, batch.id ≠ name) (aimed : change.target = target)
    (allowed : (recipient.store.ledger change.key).all (sequencedLedgerWriteAllowed change)) : ∃ front row, (full target recipient.store change.key = false ∧
      Placed target recipient change (view recipient) ((stageInto name change state).run recipient.store).1 front row) ∨
      (full target recipient.store change.key ∧ of change.key (view recipient).window = [] ∧
        Placed target recipient change (view recipient).close ((stageInto name change state).run recipient.store).1 front row) := by
  have authorized := layout.standing.authorized aimed
  have guessed : (baselines change state none).1 = !change.present := rfl
  rcases layout.order with closed | ⟨front,row,shape,closed,isOpen⟩
  · have waits : full target recipient.store change.key = false := by
      unfold full
      rw [openBatch_closed closed]
      rfl
    obtain ⟨t,ran,written⟩ := writeNew_run authorized closed fresh allowed guessed
    rw [stageInto_none (openBatch_closed closed),ran]
    exact ⟨_,_,.inl ⟨waits,.new aimed written closed layout.ids fresh layout.versions rfl (window_closed closed)⟩⟩
  have apart := layout.apart shape
  have version : row.policyVersion = target.policyVersion := by
    apply layout.versions
    rw [shape]
    exact mem_append_right _ (mem_singleton_self _)
  have found : openBatch target.policyVersion recipient.store = some row := openBatch_last shape closed isOpen version
  have current : window recipient.store.batches = row.items.map entryOf := by
    rw [shape,window_concat closed,if_pos isOpen]
  have waits : full target recipient.store change.key = ((row.item change.key).isNone && decide (maxItems ≤ row.items.length)) := by
    unfold full
    rw [found]
    rfl
  rw [stageInto_some (by rw [aimed]; exact found) (batchAt_last shape apart)]
  split
  · rename_i wants
    have absent := Option.isNone_iff_eq_none.mp wants.1
    have after := seal_layout layout
    have placed : (advance target recipient .sealing).store = sealBatch row.id recipient.store :=
      (sealBatch_last shape closed apart isOpen).symm
    have unused : ∀ one ∈ (sealBatch row.id recipient.store).batches, one.id ≠ name := by
      rw [←placed]
      intro one mem
      obtain ⟨old,stored,rfl⟩ := mem_map.mp mem
      have same : (if old.isOpen then { old with isSealed := true } else old).id = old.id := by
        split
        · rfl
        rfl
      rw [same]
      exact fresh old stored
    have none_ : ∀ one ∈ (sealBatch row.id recipient.store).batches, one.isOpen = false := by
      rw [←placed]
      exact sealOpen_none _
    have opened : ∃ t, (writeNew name change (baselines change state none)).run (sealBatch row.id recipient.store) = (t,.staged) ∧
        Written change (sealBatch row.id recipient.store).batches (emptyBatch name change.target.policyVersion)
          (sealBatch row.id recipient.store) t := writeNew_run authorized none_ unused allowed guessed
    obtain ⟨t,ran,written⟩ := opened
    rw [ran]
    refine ⟨_,_,.inr ⟨?_,?_,.new aimed ⟨written.ledger,written.policyVersion,written.authority,written.batches⟩ none_ ?_ unused ?_ ?_ rfl⟩⟩
    · rw [waits,absent,decide_eq_true wants.2]
      rfl
    · show of change.key (window recipient.store.batches) = []
      rw [current]
      exact of_entries row change.key absent
    · rw [←placed]
      exact after.ids
    · rw [←placed]
      exact after.versions
    rw [←seal_view layout,←placed]
    rfl
  rename_i room
  have based : (row.items.any fun item => decide (item.object = change.key)) ∨ (baselines change state (row.item change.key)).1 = !change.present := by
    cases there : row.item change.key with
    | none => exact .inr rfl
    | some =>
      left
      rw [←item_any,there]
      rfl
  have space : (row.item change.key).isSome ∨ row.items.length < maxItems := by
    cases there : row.item change.key with
    | none =>
      right
      by_contra more
      exact room ⟨by rw [there]; rfl,Nat.not_lt.mp more⟩
    | some => exact .inl rfl
  obtain ⟨t,ran,written⟩ := writeOpen_run authorized shape apart isOpen space allowed based
  rw [ran]
  refine ⟨front,row,.inl ⟨?_,written,closed,?_,?_,?_,current⟩⟩
  · rw [waits,Bool.eq_false_iff]
    intro both
    simp only [Bool.and_eq_true,decide_eq_true_eq] at both
    exact room ⟨both.1,both.2⟩
  · rw [←shape]
    exact layout.ids
  · rw [←shape]
    exact layout.versions
  show notices recipient.store.batches = _
  rw [shape]
  funext object
  rw [notices_concat,announced_open isOpen,append_nil]

theorem settle_run (change : Change) (s : Store) : ((settleDuplicateHighWater change).run s).1 = settleRow change s := by
  show ((if (s.ledger change.key).any (settles change) then Program.done StageResult.duplicate
    else .read (.done .threw) fun later =>
      if alreadySettled change (later.ledger change.key) then .done .duplicate else .done .threw).run (settleRow change s)).1 = _
  split
  · rfl
  rw [Program.run_read]
  split
  · rfl
  rfl

theorem deliver_run (name : Nat) (layout : Layout target recipient) (made : stageChange target input = some change) :
    (advance target recipient (.deliver name input)).store = match path change (recipient.store.ledger change.key) with
      | .settle => settleRow change recipient.store
      | .stage => ((stageInto name change (recipient.store.ledger change.key)).run recipient.store).1
      | _ => recipient.store := by
  have authorized := layout.standing.authorized (stageChange_some made).1
  unfold advance
  dsimp only
  rw [made]
  unfold stageAuthenticatedDeliveryChangeForTarget
  rw [made]
  rw [Program.run_read,if_pos authorized]
  unfold stageAuthenticatedDeliveryChangeCandidate
  rw [Program.run_read]
  dsimp only
  cases path change (recipient.store.ledger change.key) with
  | settle => exact settle_run change recipient.store
  | _ => rfl

theorem later_path (layout : Layout target recipient) (receipt : Receipt) (given : change.receipt = some receipt)
    (later : recipient.last < receipt.acceptedSequence) :
    (path change (recipient.store.ledger change.key) = .settle ∨ path change (recipient.store.ledger change.key) = .stage) ∧
      (recipient.store.ledger change.key).all (sequencedLedgerWriteAllowed change) := by
  unfold path sequencedLedgerWriteAllowed
  rw [given]
  cases stored : recipient.store.ledger change.key with
  | none => exact ⟨.inr rfl,rfl⟩
  | some row =>
    obtain ⟨sequence,held,bound⟩ := layout.sequences change.key row stored
    have newer : sequence < receipt.acceptedSequence := Nat.lt_of_le_of_lt bound later
    simp only [Option.all_some,held]
    rw [if_neg (Nat.lt_asymm newer),if_neg (Nat.ne_of_gt newer)]
    refine ⟨?_,decide_eq_true newer⟩
    split
    · exact .inl rfl
    exact .inr rfl

theorem settle_recorded (change : Change) (s : Store) : (fun object => ((settleRow change s).ledger object).map ObjectState.present) =
      fun object => (s.ledger object).map ObjectState.present := by
  rcases settleRow_cases change s with same | ⟨row,stored,-,ledger⟩
  · rw [same]
  funext object
  rw [ledger]
  by_cases own : object = change.key
  · rw [own,update_self,stored]
    exact congrArg some (settled_values change row).1
  rw [update_of_ne own]

theorem settle_sequences (given : change.receipt = some receipt)
    (bound : ∀ object row, s.ledger object = some row → ∃ sequence, row.sequence = some sequence ∧ sequence ≤ last)
    (later : last < receipt.acceptedSequence) (object : Text) (row : ObjectState) (stored : (settleRow change s).ledger object = some row) :
    ∃ sequence, row.sequence = some sequence ∧ sequence ≤ receipt.acceptedSequence := by
  have older : ∀ {old : ObjectState}, s.ledger object = some old → ∃ sequence, old.sequence = some sequence ∧ sequence ≤ receipt.acceptedSequence := by
    intro old there
    obtain ⟨sequence,held,small⟩ := bound object old there
    exact ⟨sequence,held,by omega⟩
  rcases settleRow_cases change s with same | ⟨old,there,-,ledger⟩
  · rw [same] at stored
    exact older stored
  rw [ledger] at stored
  by_cases own : object = change.key
  · rw [own,update_self] at stored
    cases stored
    refine ⟨receipt.acceptedSequence,?_,Nat.le_refl _⟩
    unfold settled
    rw [given]
  rw [update_of_ne own] at stored
  exact older stored

theorem Placed.layout (placed : Placed target recipient change n t front row) (layout : Layout target recipient)
    (given : change.receipt = some receipt) (later : recipient.last < receipt.acceptedSequence) : Layout target ⟨t,receipt.acceptedSequence,repeats⟩ := by
  obtain ⟨final,batches,id,version,-,_,-⟩ := placed.written.batches
  have shape : (front++[final]).map Batch.id = (front++[row]).map Batch.id := by
    rw [map_append,map_append,map_singleton,map_singleton,id]
  refine ⟨⟨?_,?_⟩,?_,?_,?_,?_⟩
  · exact placed.written.policyVersion.trans layout.standing.policyVersion
  · show ∀ present observedAt key, t.authority target present observedAt key = true
    rw [placed.written.authority]
    exact layout.standing.authority
  · show (t.batches.map Batch.id).Nodup
    rw [batches,shape]
    exact placed.ids
  · show ∀ one ∈ t.batches, one.policyVersion = target.policyVersion
    rw [batches]
    intro one mem
    rcases mem_snoc.mp mem with old | rfl
    · exact placed.versions one (mem_append_left _ old)
    rw [version]
    exact placed.versions row (mem_append_right _ (mem_singleton_self _))
  · show (∀ one ∈ t.batches, one.isOpen = false) ∨ ∃ front row, t.batches = front++[row] ∧ _
    cases still : final.isOpen with
    | true => exact .inr ⟨front,final,batches,placed.closed,still⟩
    | false =>
      left
      rw [batches]
      intro one mem
      rcases mem_snoc.mp mem with old | rfl
      · exact placed.closed one old
      exact still
  intro object held stored
  rw [placed.written.ledger] at stored
  by_cases own : object = change.key
  · rw [own,update_self] at stored
    cases stored
    refine ⟨receipt.acceptedSequence,?_,Nat.le_refl _⟩
    unfold ledgerRow
    rw [given]
  rw [update_of_ne own] at stored
  obtain ⟨sequence,same,small⟩ := layout.sequences object held stored
  exact ⟨sequence,same,Nat.le_of_lt (Nat.lt_of_le_of_lt small later)⟩

section
variable (layout : Layout target recipient)
include layout

theorem advance_view (occurrence : Occurrence) (enabled : Enabled target recipient occurrence) : Layout target (advance target recipient occurrence) ∧
      view (advance target recipient occurrence) = (changes target recipient occurrence).foldl Notices.advance (view recipient) := by
  cases occurrence with
  | sealing => exact ⟨seal_layout layout,seal_view layout⟩
  | deliver name input =>
    obtain ⟨fresh,change,receipt,made,given,later⟩ := enabled
    have aimed := (stageChange_some made).1
    obtain ⟨either,allowed⟩ := later_path layout receipt given later
    have store := deliver_run name layout made
    have after : advance target recipient (.deliver name input) =
        ⟨(advance target recipient (.deliver name input)).store,receipt.acceptedSequence,repeatsAfter recipient change⟩ := by
      unfold advance
      dsimp only
      rw [made]
      simp only [given,Option.map_some,Option.getD_some]
    rw [after]
    unfold changes
    dsimp only
    rw [made]
    dsimp only
    rcases either with settle | stage
    · rw [settle] at store
      rw [store,settle,if_neg (by decide)]
      have repeats : repeatsAfter recipient change = recipient.repeats := by
        unfold repeatsAfter
        rw [settle,if_neg (by simp)]
      refine ⟨⟨⟨layout.standing.policyVersion,layout.standing.authority⟩,layout.ids,layout.versions,layout.order,?_⟩,?_⟩
      · exact settle_sequences given layout.sequences later
      unfold view
      rw [settle_recorded,repeats]
      rfl
    rw [stage] at store
    rw [store,stage,if_pos rfl]
    obtain ⟨_,_,placed⟩ := stageInto_placed name (recipient.store.ledger change.key) layout fresh aimed allowed
    rcases placed with ⟨waits,placed⟩ | ⟨waits,absent,placed⟩
    · refine ⟨placed.layout layout given later,?_⟩
      have repeats : repeatsAfter recipient change = ((view recipient).enter change.key change.present).repeats := by
        unfold repeatsAfter Notices.enter
        rw [stage]
        simp only [true_and]
        rfl
      rw [waits,repeats]
      exact written_view placed.written placed.closed placed.told placed.items rfl
    refine ⟨placed.layout layout given later,?_⟩
    have repeats : repeatsAfter recipient change = ((view recipient).close.enter change.key change.present).repeats := by
      unfold repeatsAfter
      rw [if_pos ⟨stage,absent⟩]
      rfl
    rw [waits,repeats]
    exact written_view placed.written placed.closed placed.told placed.items rfl

theorem of_window (object : Text) : of object (view recipient).window = [] ↔ ∀ batch ∈ recipient.store.batches, batch.isOpen → batch.item object = none := by
  show of object (window recipient.store.batches) = [] ↔ _
  rcases layout.order with closed | ⟨front,row,shape,closed,isOpen⟩
  · rw [window_closed closed]
    refine ⟨fun _ batch mem isOpen => ?_,fun _ => rfl⟩
    rw [closed batch mem] at isOpen
    cases isOpen
  rw [shape,window_concat closed,if_pos isOpen]
  constructor
  · intro absent batch mem open_
    rcases mem_snoc.mp mem with old | rfl
    · rw [closed batch old] at open_
      cases open_
    apply find?_eq_none.mpr
    intro item stored
    exact filter_eq_nil_iff.mp absent (entryOf item) (mem_map_of_mem stored)
  intro none_
  exact of_entries row object (none_ row (mem_append_right _ (mem_singleton_self _)) isOpen)

theorem rightly_faithful : RightlyTold recipient.store ↔ Faithful (view recipient) := by
  refine forall_congr' fun object => ?_
  have present : (view recipient).recorded object = some true ↔ ∃ row, recipient.store.ledger object = some row ∧ row.present := Option.map_eq_some_iff
  rw [of_window layout,present]
  rfl

theorem balanced_iff (telescopes : Telescopes (view recipient)) (occurrence : Occurrence) (enabled : Enabled target recipient occurrence) :
    RightlyTold (advance target recipient occurrence).store ↔ Balanced target recipient occurrence := by
  obtain ⟨after,moves⟩ := advance_view layout occurrence enabled
  rw [rightly_faithful after,moves]
  refine ⟨fun faithful => ?_,fun balanced => (telescopes.admitted balanced).faithful⟩
  unfold Balanced
  cases occurrence with
  | sealing => exact ⟨telescopes.admits .close faithful,trivial⟩
  | deliver name input =>
    obtain ⟨fresh,change,receipt,made,given,later⟩ := enabled
    have aimed := (stageChange_some made).1
    have allowed := (later_path layout receipt given later).2
    unfold changes at faithful ⊢
    dsimp only at faithful ⊢
    rw [made] at faithful ⊢
    dsimp only at faithful ⊢
    split
    · rename_i stage
      rw [if_pos stage] at faithful
      split
      · rename_i waits
        rw [if_pos waits] at faithful
        have room : of change.key (view recipient).window = [] := by
          obtain ⟨_,_,placed⟩ := stageInto_placed name none layout fresh aimed allowed
          rcases placed with ⟨other,-⟩ | ⟨-,absent,-⟩
          · rw [other] at waits
            cases waits
          exact absent
        refine ⟨telescopes.makes_room room faithful,fun closes => ?_,trivial⟩
        have uneven := (close_report (view recipient) change.key change.present).1
        cases uneven.symm.trans closes
      rename_i waits
      rw [if_neg waits] at faithful
      exact ⟨telescopes.admits (.report change.key change.present) faithful,trivial⟩
    trivial
end
end

structure Noticed (target : Target) (history : List (Transition Recipient Occurrence)) (recipient : Recipient) : Prop where
  layout : Layout target recipient
  telescopes : (∀ taken ∈ history, Balanced target taken.before taken.event) → Telescopes (view recipient)
  exact_ : (∀ taken ∈ history, RightlyTold taken.after.store) ↔ ∀ taken ∈ history, Balanced target taken.before taken.event

theorem Noticed.step {recipient after : Recipient} (noticed : Noticed target history recipient) (moved : advance target recipient occurrence = after)
    (enabled : Enabled target recipient occurrence) : Noticed target (history++[⟨recipient,occurrence,after⟩]) after := by
  subst moved
  have stepped := advance_view noticed.layout occurrence enabled
  refine ⟨stepped.1,fun balanced => ?_,?_⟩
  · have earlier := noticed.telescopes fun taken mem => balanced taken (mem_append_left _ mem)
    have last := balanced _ (mem_append_right _ (mem_singleton_self _))
    rw [stepped.2]
    exact earlier.admitted last
  rw [forall_mem_append,forall_mem_append,noticed.exact_,forall_mem_singleton,forall_mem_singleton]
  refine and_congr_right fun balanced => ?_
  exact balanced_iff noticed.layout (noticed.telescopes balanced) occurrence enabled

theorem untold_noticed (selected : Text → Bool → Nat → Option Target) (standing : ∀ present observedAt key, authority target present observedAt key) :
    Noticed target [] ⟨untold target.policyVersion authority selected,0,fun _ => false⟩ := by
  constructor
  case layout =>
    refine ⟨⟨rfl,standing⟩,nodup_nil,?_,.inl ?_,?_⟩
    · intro _ mem
      cases mem
    · intro _ mem
      cases mem
    intro _ _ stored
    cases stored
  case telescopes =>
    intro _
    refine ⟨fun _ => Nat.zero_le 1,?_,fun _ told => absurd rfl told,?_,?_⟩
    · intro _ mem
      cases mem
    · intro _ told
      cases told
    intro _ mem
    cases mem
  case exact_ => simp

theorem last_notice_exact (target : Target) (authority : Target → Bool → Nat → Text → Bool) (selected : Text → Bool → Nat → Option Target)
    (standing : ∀ present observedAt key, authority target present observedAt key = true) (history : List (Transition Recipient Occurrence)) (final : Recipient)
    (path : Runs (Recorded (Guarded (fun s e t => advance target s e = t) (Enabled target)))
      ⟨untold target.policyVersion authority selected,0,fun _ => false⟩ history final) :
    (∀ taken ∈ history, RightlyTold taken.after.store) ↔ ∀ taken ∈ history, Balanced target taken.before taken.event := by
  have noticed : Noticed target history final := by
    apply path.preserves_history (Noticed target)
    · intro _ s _ t noticed moved
      obtain ⟨rfl,rfl,ran,enabled⟩ := moved
      exact noticed.step ran enabled
    · exact untold_noticed selected standing
  exact noticed.exact_

-- An object is added and the batch sealed; in the next window it is overwritten and removed: the overwrite's item
-- starts from a guessed absence, so nobody is told of the removal.

def subscriber : Target := ⟨replicate 10 [0x31],1,1,true,.both,.client,[0x64]⟩

def acceptedEvent (present : Bool) (sequence : Nat) : StageInput :=
  ⟨[0x64,0x31],present,if present then some [0x76,sequence.toUInt16] else none,some sequence,some sequence,some [0x70,sequence.toUInt16]⟩

def overwrittenAndRemoved : List Occurrence :=
  [.deliver 1 (acceptedEvent true 1),.sealing,.deliver 2 (acceptedEvent true 2),.deliver 3 (acceptedEvent false 3)]

def unnoticed : Recipient := ⟨untold 1 (fun _ _ _ _ => true) (fun _ _ _ => none),0,fun _ => false⟩

theorem acceptedEvent_enabled {sequence} {recipient : Recipient} (fresh : ∀ batch ∈ recipient.store.batches, batch.id ≠ name)
    (made : ((stageChange subscriber (acceptedEvent present sequence)).bind Change.receipt).map Receipt.acceptedSequence = some sequence)
    (later : recipient.last < sequence) : Enabled subscriber recipient (.deliver name (acceptedEvent present sequence)) := by
  obtain ⟨receipt,held,same⟩ := Option.map_eq_some_iff.mp made
  obtain ⟨change,changed,given⟩ := Option.bind_eq_some_iff.mp held
  exact ⟨fresh,change,receipt,changed,given,same ▸ later⟩

theorem overwritten_admitted : Admitted (advance subscriber) (Enabled subscriber) unnoticed overwrittenAndRemoved :=
  ⟨acceptedEvent_enabled (by decide) (by decide) (by decide),trivial,acceptedEvent_enabled (by decide) (by decide) (by decide),
    acceptedEvent_enabled (by decide) (by decide) (by decide),trivial⟩

theorem last_notice_wrong : ¬∀ (target : Target) (authority : Target → Bool → Nat → Text → Bool)
    (selected : Text → Bool → Nat → Option Target), target.changeMode = .both → (∀ present observedAt key, authority target present observedAt key = true) →
    ∀ (history : List (Transition Recipient Occurrence)) (final : Recipient), Runs (Recorded (Guarded (fun s e t => advance target s e = t) (Enabled target)))
        ⟨untold target.policyVersion authority selected,0,fun _ => false⟩ history final → RightlyTold final.store := by
  intro always
  have wrong := always subscriber (fun _ _ _ _ => true) (fun _ _ _ => none) rfl (fun _ _ _ => rfl) _ _
    (Runs.recorded_admitted _ unnoticed _ overwritten_admitted) [0x64,0x31] (by decide) (by decide)
  obtain ⟨_,stored,present⟩ := wrong.mp (by decide)
  cases stored
  cases present

theorem last_notice_exact_example : (∀ taken ∈ trace (advance subscriber) unnoticed overwrittenAndRemoved, RightlyTold taken.after.store) ↔
      ∀ taken ∈ trace (advance subscriber) unnoticed overwrittenAndRemoved, Balanced subscriber taken.before taken.event :=
  last_notice_exact subscriber (fun _ _ _ _ => true) (fun _ _ _ => none) (fun _ _ _ => rfl) _ _
    (Runs.recorded_admitted _ unnoticed _ overwritten_admitted)
end LedgeTopOps.DeliveryChanges
