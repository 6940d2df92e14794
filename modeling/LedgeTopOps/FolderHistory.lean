import LedgeTopOps.FolderNetting

namespace LedgeTopOps.FolderNetting
open List KeyedRows StepRuns FolderBatches Function
open Bool (and_eq_true)
open NetLedger (Ledger Balanced net worth put even)

section
variable {s : Subscription} {a : Association} {world : World}

def hits (s : Subscription) (call : Call) : Bool := call.recipients.any fun recipient => decide (recipient.subscription = s)

def reported (s : Subscription) (object : String) (call : Call) : List (String × Bool) :=
  if hits s call then [(object,call.present)] else []

theorem mem_targets (mem : target ∈ targets call minted) : ∃ recipient ∈ call.recipients, ∃ position < call.recipients.length,
    target = ⟨recipient.subscription,recipient.associationId,minted+position⟩ := by
  obtain ⟨⟨recipient,position⟩,there,rfl⟩ := mem_map.mp mem
  obtain ⟨-,short,same⟩ := mem_zipIdx there
  refine ⟨recipient,?_,position,by omega,rfl⟩
  rw [same]
  exact getElem_mem _

theorem targets_hit (hit : hits s call) : ∃ target ∈ targets call minted, target.subscription = s := by
  obtain ⟨recipient,there,mine⟩ := any_eq_true.mp hit
  obtain ⟨position,short,same⟩ := mem_iff_getElem.mp there
  refine ⟨⟨recipient.subscription,recipient.associationId,minted+position⟩,?_,of_decide_eq_true mine⟩
  refine mem_map.mpr ⟨(recipient,position),?_,rfl⟩
  rw [←same]
  exact List.mem_zipIdx_iff_getElem?.mpr (List.getElem?_eq_getElem short)

theorem targets_miss (miss : hits s call = false) (mem : target ∈ targets call minted) : target.subscription ≠ s := by
  obtain ⟨recipient,there,_,-,rfl⟩ := mem_targets mem
  intro mine
  have hit : hits s call := any_eq_true.mpr ⟨recipient,there,decide_eq_true mine⟩
  rw [miss] at hit
  cases hit

theorem Sliced.aimed (sliced : Sliced s a world reports front last) (waiting : call ∈ world.calls) (minted : Nat) (target : Target)
    (mem : target ∈ targets call minted) (mine : target.subscription = s) : target.associationId = a.id ∧ a.covers call.key := by
  obtain ⟨recipient,there,_,-,rfl⟩ := mem_targets mem
  exact sliced.calls call waiting recipient there mine

inductive Opened (s : Subscription) (a : Association) (world : World) (call : Call) (front : List Batch) :
    Option Batch → Batch → Prop where
  | was : Opened s a world call front (some batch) batch
  | new (target : Target) (member : target ∈ targets call (world.minted+1)) (mine : target.subscription = s) :
    Opened s a world call front none (newBatch world.now target)

theorem inserted_batches (sliced : Sliced s a world reports front last) (steady : Steady s a world) (waiting : call ∈ world.calls)
    (hit : hits s call) (changed : recorded world.objectStates s object ≠ some call.present) : ∃ batch, Opened s a world call front last batch ∧
      own s (insertBatches world call.key object call.present (targets call (world.minted+1))
        (suppressReplaced world call.key (targets call (world.minted+1)) world.batches)) = front++[batch] := by
  have aimed := sliced.aimed waiting (world.minted+1)
  have suppressed : own s (suppressReplaced world call.key (targets call (world.minted+1)) world.batches) = front++last.toList := by
    rw [own_suppressReplaced sliced.associated fun target mem mine => (aimed target mem mine).1]
    exact sliced.batches
  unfold insertBatches
  rw [own_insertions,suppressed,filter_filter]
  generalize rows : (targets call (world.minted+1)).filter _ = inserted
  have inside : ∀ target ∈ inserted, target ∈ targets call (world.minted+1) ∧ target.subscription = s := by
    intro _ mem
    rw [←rows] at mem
    obtain ⟨there,found⟩ := mem_filter.mp mem
    rw [and_eq_true,decide_eq_true_eq] at found
    exact ⟨there,found.1⟩
  obtain ⟨target,there,mine⟩ : ∃ target ∈ targets call (world.minted+1), target.subscription = s := targets_hit hit
  have some_ : target ∈ inserted := by
    rw [←rows]
    refine mem_filter.mpr ⟨there,?_⟩
    have different_ : different world object call.present target := by
      unfold different
      rw [mine]
      exact decide_eq_true changed
    rw [decide_eq_true mine,live_target steady (aimed target there mine).2 mine (aimed target there mine).1,different_, subscribed_target steady mine]
    rfl
  cases last with
  | some batch =>
    refine ⟨batch,.was,?_⟩
    refine insertions_open world.now inserted (fun one mem => (inside one mem).2) ⟨batch,?_,?_,?_⟩
    · exact mem_append_right _ (mem_singleton_self batch)
    · have mem : batch ∈ own s world.batches := by
        rw [sliced.batches]
        exact mem_append_right _ (mem_singleton_self batch)
      exact (mem_own.mp mem).2
    exact (sliced.open_ batch rfl).1
  | none =>
    cases inserted with
    | nil => cases some_
    | cons first rest =>
      have firstly := inside first (mem_cons_self ..)
      refine ⟨newBatch world.now first,.new first firstly.1 firstly.2,?_⟩
      have closed := insertions_closed world.now first rest (fun one mem => (inside one mem).2) sliced.spent
      simpa using closed

structure Ready (s : Subscription) (a : Association) (world : World) (call : Call) (front : List Batch) (last : Option Batch)
    (batch : Batch) : Prop where
  subscription : batch.subscription = s
  associationId : batch.associationId = a.id
  open_ : batch.open = true
  entries : entries batch = (last.map entries).getD []
  keyed : Keyed Batch.id (front++[batch])
  fresh : batch.id < world.minted+1+call.recipients.length
  tokens : ∀ item ∈ batch.items, item.eventToken < world.minted

theorem Opened.ready (sliced : Sliced s a world reports front last) (waiting : call ∈ world.calls)
    (opened : Opened s a world call front last batch) : Ready s a world call front last batch := by
  cases opened with
  | was =>
    have split : own s world.batches = front++[batch] := sliced.batches
    have mem : batch ∈ own s world.batches := by
      rw [split]
      exact mem_append_right _ (mem_singleton_self batch)
    have low := sliced.fresh batch mem
    exact ⟨(mem_own.mp mem).2,sliced.associated batch mem,(sliced.open_ batch rfl).1,rfl,split ▸ sliced.keyed, by omega,sliced.tokens batch mem⟩
  | new target mem mine =>
    have split : own s world.batches = front := by simpa using sliced.batches
    obtain ⟨recipient,there,position,short,same⟩ := mem_targets mem
    have number : target.batchId = world.minted+1+position := by rw [same]
    refine ⟨mine,(sliced.aimed waiting _ target mem mine).1,rfl,rfl,?_,?_,fun item inside => nomatch inside⟩
    · refine Keyed.add (split ▸ sliced.keyed) fun row inside equal => ?_
      have low := sliced.fresh row (split ▸ inside)
      have high : row.id = target.batchId := equal
      omega
    show target.batchId < _
    omega

theorem written_id : (written now key object present token batch).id = batch.id := by
  unfold written settled
  split
  · rfl
  rfl

theorem written_associationId : (written now key object present token batch).associationId = batch.associationId := by
  unfold written settled
  split
  · rfl
  rfl

theorem written_items : (written now key object present token batch).items = upsertItem batch.items object key present token := by
  unfold written settled
  split
  · rfl
  rfl

theorem written_entries : entries (written now key object present token batch) = put (entries batch) object present := by
  unfold entries
  rw [written_items]
  exact upsertItem_entries batch.items

theorem written_open (now : Int) (key : List Char) (object : String) (present : Bool) (token : Nat) (opens : batch.open) :
    ((written now key object present token batch).open ∧ Counts (written now key object present token batch)) ∨
    ((written now key object present token batch).open = false ∧ even (entries (written now key object present token batch))) := by
  unfold written settled
  split
  · rename_i zero
    exact Or.inr ⟨rfl,(even_items _).mpr zero⟩
  rename_i some_
  exact Or.inl ⟨opens,⟨rfl,rfl,some_⟩⟩

theorem written_pending (opens : batch.open) : (written now key object present token batch).status ≠ .processing := by
  have pending : batch.status = .pending := by
    unfold Batch.open at opens
    rw [and_eq_true,decide_eq_true_eq] at opens
    exact opens.1
  unfold written settled
  split
  · exact fun same => nomatch same
  show batch.status ≠ .processing
  rw [pending]
  exact fun same => nomatch same

theorem stored_states (sliced : Sliced s a world reports front last) (steady : Steady s a world) (waiting : call ∈ world.calls)
    (hit : hits s call) (changed : recorded world.objectStates s object ≠ some call.present) :
    recorded (storeObjectStates world call.key object call.present (targets call (world.minted+1))) s =
      update (recorded world.objectStates s) object (some call.present) := by
  obtain ⟨target,there,mine⟩ : ∃ target ∈ targets call (world.minted+1), target.subscription = s := targets_hit hit
  obtain ⟨aimed,covers⟩ := sliced.aimed waiting _ target there mine
  funext one
  unfold storeObjectStates
  rw [recorded_stores]
  have any : (((targets call (world.minted+1)).filter fun target => live world call.key target
      && different world object call.present target).any fun target => decide (target.subscription = s)) := by
    refine any_eq_true.mpr ⟨target,mem_filter.mpr ⟨there,?_⟩,decide_eq_true mine⟩
    have different_ : different world object call.present target := by
      unfold different
      rw [mine]
      exact decide_eq_true changed
    rw [live_target steady covers mine aimed,different_]
    rfl
  rw [any]
  by_cases same : one = object
  · subst same
    rw [if_pos ⟨rfl,rfl⟩,update_self]
  rw [if_neg fun both => same both.2.symm,update_of_ne same]

theorem kept_states (unaimed : ∀ target ∈ targets call (world.minted+1), target.subscription = s → different world object call.present target = false) :
    recorded (storeObjectStates world call.key object call.present (targets call (world.minted+1))) s = recorded world.objectStates s := by
  funext one
  unfold storeObjectStates
  rw [recorded_stores,if_neg]
  rintro ⟨any,-⟩
  obtain ⟨target,mem,mine⟩ := any_eq_true.mp any
  obtain ⟨there,found⟩ := mem_filter.mp mem
  rw [and_eq_true,unaimed target there (of_decide_eq_true mine)] at found
  cases found.2

theorem own_recordedBatches : own s (recordedBatches world key object present token chosen) =
    cancelNetZero world.now token (recount world.now token (insertItems world key object present token chosen
      (own s (insertBatches world key object present chosen (suppressReplaced world key chosen world.batches))))) := by
  unfold recordedBatches
  rw [own_cancelNetZero,own_recount,own_insertItems]

def afterWrite (world : World) (object : String) (call : Call) : World :=
  { recordChange world object call with calls := world.calls.erase call }

section
variable (sliced : Sliced s a world reports front last)
include sliced

theorem afterWrite_calls (other : Call) (mem : other ∈ (afterWrite world object call).calls) (recipient : Recipient) (there : recipient ∈ other.recipients)
    (mine : recipient.subscription = s) : recipient.associationId = a.id ∧ a.covers other.key :=
  sliced.calls other (mem_of_mem_erase mem) recipient there mine

theorem unchanged_kept (waiting : call ∈ world.calls) (unaimed : ∀ target ∈ targets call (world.minted+1), target.subscription = s →
      different world object call.present target = false) (balanced : Balanced (ledger s world.objectStates front last) later) :
    Kept s a world (afterWrite world object call) later := by
  have inserted : own s (insertBatches world call.key object call.present (targets call (world.minted+1))
      (suppressReplaced world call.key (targets call (world.minted+1)) world.batches)) = own s world.batches := by
    unfold insertBatches
    rw [own_insertions,own_suppressReplaced sliced.associated fun target mem mine => (sliced.aimed waiting _ target mem mine).1, filter_filter]
    generalize rows : (targets call (world.minted+1)).filter _ = inserted
    cases inserted with
    | nil => rfl
    | cons target rest =>
      have mem : target ∈ target :: rest := mem_cons_self ..
      rw [←rows] at mem
      obtain ⟨there,found⟩ := mem_filter.mp mem
      simp only [and_eq_true,decide_eq_true_eq] at found
      rw [unaimed target there found.1] at found
      cases found.2.1.2
  have batches : own s (afterWrite world object call).batches = own s world.batches := by
    show own s (recordedBatches world call.key object call.present world.minted (targets call (world.minted+1))) = _
    rw [own_recordedBatches,inserted]
    exact unwritten_batches unaimed (fun batch mem => (mem_own.mp mem).2) sliced.tokens world.now
  have states : recorded (afterWrite world object call).objectStates s = recorded world.objectStates s := kept_states unaimed
  have minted : world.minted ≤ (afterWrite world object call).minted := by
    show world.minted ≤ world.minted+1+call.recipients.length
    omega
  refine ⟨⟨front,last,?_,sliced.spent,sliced.open_,?_,?_,?_,?_,?_,?_,afterWrite_calls sliced⟩,?_⟩
  · rw [batches]
    exact sliced.batches
  · unfold ledger
    rw [states]
    exact balanced
  · rw [batches]
    exact sliced.keyed
  · rw [batches]
    exact fun batch mem => Nat.lt_of_lt_of_le (sliced.fresh batch mem) minted
  · rw [batches]
    exact fun batch mem item inside => Nat.lt_of_lt_of_le (sliced.tokens batch mem item inside) minted
  · rw [batches]
    exact sliced.associated
  · rw [batches]
    exact sliced.sealing
  rw [batches]
  exact .refl

theorem Opened.changed (opened : Opened s a world call front last batch) (changed : recorded world.objectStates s object ≠ some call.present) :
    ∀ item ∈ batch.items, item.object = object → item.currentPresent ≠ call.present := by
  intro _ mem here same
  cases opened with
  | was =>
    have state := sliced.balanced.current (mem_map_of_mem mem)
    refine changed ?_
    rw [←here,←same]
    exact state
  | new => cases mem

section
variable (steady : Steady s a world) (waiting : call ∈ world.calls) (hit : hits s call) (changed : recorded world.objectStates s object ≠ some call.present)
include steady waiting hit changed

theorem changed_batches : ∃ batch, Opened s a world call front last batch ∧ own s (afterWrite world object call).batches =
      front++[written world.now call.key object call.present world.minted batch] := by
  obtain ⟨batch,opened,inserted⟩ := inserted_batches sliced steady waiting hit changed
  have ready := opened.ready sliced waiting
  refine ⟨batch,opened,?_⟩
  show own s (recordedBatches world call.key object call.present world.minted (targets call (world.minted+1))) = _
  rw [own_recordedBatches,inserted]
  refine written_batches sliced.spent ready.open_ ?_ (opened.changed sliced changed) world.now
  obtain ⟨target,there,mine⟩ : ∃ target ∈ targets call (world.minted+1), target.subscription = s := targets_hit hit
  obtain ⟨aimed,covers⟩ := sliced.aimed waiting _ target there mine
  refine any_eq_true.mpr ⟨target,there,?_⟩
  have different_ : different world object call.present target := by
    unfold different
    rw [mine]
    exact decide_eq_true changed
  rw [decide_eq_true (mine.trans ready.subscription.symm),decide_eq_true (aimed.trans ready.associationId.symm),
    live_target steady covers mine aimed,different_,subscribed_target steady mine]
  rfl

theorem changed_kept : Kept s a world (afterWrite world object call) (reports++[(object,call.present)]) := by
  obtain ⟨batch,opened,batches⟩ := changed_batches sliced steady waiting hit changed
  have ready := opened.ready sliced waiting
  generalize final_ : written world.now call.key object call.present world.minted batch = final at batches
  have id : final.id = batch.id := by
    rw [←final_]
    exact written_id
  have states := stored_states sliced steady waiting hit changed
  have minted : (afterWrite world object call).minted = world.minted+1+call.recipients.length := rfl
  have front_ : ∀ one ∈ front, one ∈ own s world.batches := by
    intro _ mem
    rw [sliced.batches]
    exact mem_append_left _ mem
  have entered : entries final = ((ledger s world.objectStates front last).enter object call.present).current := by
    rw [←final_,written_entries,ready.entries]
    rfl
  have report := sliced.balanced.report object call.present
  have common (front' : List Batch) (last' : Option Batch) (split : front++[final] = front'++last'.toList)
      (spent : ∀ one ∈ front', one.open = false) (open_ : ∀ one ∈ last', one.open ∧ Counts one)
      (same : ledger s (afterWrite world object call).objectStates front' last' = (ledger s world.objectStates front last).report object call.present) :
      Sliced s a (afterWrite world object call) (reports++[(object,call.present)]) front' last' := by
    refine ⟨batches.trans split,spent,open_,same ▸ report,?_,?_,?_,?_,?_,afterWrite_calls sliced⟩
    · rw [batches]
      have ids : (front++[final]).map Batch.id = (front++[batch]).map Batch.id := by
        simp [id]
      unfold Keyed
      rw [ids]
      exact ready.keyed
    · rw [batches,minted]
      intro one mem
      rcases mem_snoc.mp mem with old | rfl
      · have low := sliced.fresh one (front_ one old)
        omega
      rw [id]
      exact ready.fresh
    · rw [batches,minted]
      intro one mem
      rcases mem_snoc.mp mem with old | rfl
      · intro item inside
        have low := sliced.tokens one (front_ one old) item inside
        omega
      rw [←final_,written_items]
      refine upsertItem_tokens (fun item inside => ?_) (by omega)
      have low := ready.tokens item inside
      omega
    · rw [batches]
      intro one mem
      rcases mem_snoc.mp mem with old | rfl
      · exact sliced.associated one (front_ one old)
      rw [←final_,written_associationId]
      exact ready.associationId
    rw [batches]
    intro one mem processing
    rcases mem_snoc.mp mem with old | rfl
    · exact sliced.sealing one (front_ one old) processing
    rw [←final_] at processing
    exact absurd processing (written_pending ready.open_)
  refine ⟨?_,?_⟩
  · have known : (ledger s world.objectStates front last).states object ≠ some call.present := changed
    have entering : ledger s (afterWrite world object call).objectStates front (some final) =
        (ledger s world.objectStates front last).enter object call.present := by
      show (⟨front.map entries,entries final,recorded (storeObjectStates _ _ _ _ _) s⟩ : Ledger String) = _
      rw [states,entered]
      rfl
    have outcome := written_open world.now call.key object call.present world.minted ready.open_
    rw [final_] at outcome
    rcases outcome with ⟨opens,counts⟩ | ⟨closed,evens⟩
    · refine ⟨front,some final,common front (some final) rfl sliced.spent ?_ ?_⟩
      · intro _ mem
        cases mem
        exact ⟨opens,counts⟩
      · have uneven := counts.uneven
        rw [entered] at uneven
        rw [entering,Ledger.report_uneven _ known uneven]
    refine ⟨front++[final],none,common _ _ (by simp) ?_ (fun _ mem => nomatch mem) ?_⟩
    · intro one mem
      rcases mem_snoc.mp mem with old | rfl
      · exact sliced.spent one old
      exact closed
    · have some_ : entries final ≠ [] := by
        rw [←final_,written_entries]
        exact NetLedger.put_some
      rw [entered] at evens
      rw [ledger_closed front final some_,entering,Ledger.report_even _ known evens]
  intro one mem sealed_
  refine ⟨one,?_,rfl,rfl,sealed_⟩
  rw [batches]
  rw [sliced.batches] at mem
  rcases mem_append.mp mem with old | new
  · exact mem_append_left _ old
  obtain ⟨opens,-⟩ := sliced.open_ one (Option.mem_toList.mp new)
  unfold Batch.open at opens
  rw [and_eq_true,Option.isNone_iff_eq_none] at opens
  rw [opens.2] at sealed_
  cases sealed_
end

theorem write_kept (steady : Steady s a world) (waiting : call ∈ world.calls) :
    Kept s a world (afterWrite world object call) (reports++reported s object call) := by
  unfold reported
  cases hit : hits s call with
  | false =>
    rw [if_neg Bool.false_ne_true,append_nil]
    refine unchanged_kept sliced waiting (fun target mem mine => ?_) sliced.balanced
    exact absurd mine (targets_miss hit mem)
  | true =>
    by_cases same : recorded world.objectStates s object = some call.present
    · refine unchanged_kept sliced waiting (fun target _ mine => ?_) ?_
      · unfold different
        rw [mine,same]
        simp
      · have known : (ledger s world.objectStates front last).states object = some call.present := same
        have report := sliced.balanced.report object call.present
        rw [Ledger.report_known _ known] at report
        exact report
    exact changed_kept sliced steady waiting hit same
end

theorem recipients_steady (steady : Steady s a world) (mem : recipient ∈ recipients world key) (mine : recipient.subscription = s) :
    recipient.associationId = a.id ∧ a.covers key := by
  obtain ⟨association,there,found⟩ := mem_flatMap.mp mem
  obtain ⟨inside,standing⟩ := mem_filter.mp there
  obtain ⟨preference,preferred,rfl⟩ := mem_map.mp found
  obtain ⟨-,granted⟩ := mem_filter.mp preferred
  rw [and_eq_true] at standing granted
  have same : preference.subscription = s := mine
  rw [same] at granted
  have one := steady.only association inside standing.1 granted.1
  rw [one] at standing ⊢
  exact ⟨rfl,standing.2⟩
end

section
variable {batch : Batch} (sealing : batch.status = .processing → batch.sealedAt.isSome)

theorem quiet_closed (id : new.id = old.id) (subscription : new.subscription = old.subscription)
    (associationId : new.associationId = old.associationId) (items : new.items = old.items) (closed : new.open = false)
    (sealed_ : old.sealedAt.isSome → new.sealedAt.isSome) (processing : new.status = .processing → new.sealedAt.isSome) : Quiet old new := by
  refine ⟨id,subscription,associationId,items,fun opens => ?_,sealed_,fun same => Or.inl (processing same)⟩
  rw [closed] at opens
  cases opens

theorem failExhausted_quiet (now : Int) (chosen : List Nat) (batch : Batch) :
    Quiet batch (if chosen.contains batch.id then
      { batch with
        status := .failed
        revision := batch.revision+1
        sealedAt := batch.sealedAt <|> some now
        leaseToken := none
        leaseExpiresAt := none
        lastError := some "attempts-exhausted" }
    else batch) := by
  split
  · refine quiet_closed rfl rfl rfl rfl rfl (fun _ => ?_) (fun same => nomatch same)
    cases batch.sealedAt with
    | none | some at_ => rfl
  exact .refl

theorem claim_quiet (now : Int) (selected : Selected) (token : Nat) (batch : Batch) :
    Quiet batch (if claims now selected batch then
      { batch with
        status := .processing
        revision := batch.revision+1
        attemptCount := batch.attemptCount+1
        sealedAt := batch.sealedAt <|> some now
        leaseToken := some token
        leaseExpiresAt := some (now+900) }
    else batch) := by
  have sealed_ : (batch.sealedAt <|> some now).isSome := by
    cases batch.sealedAt with
    | none | some at_ => rfl
  split
  · exact quiet_closed rfl rfl rfl rfl rfl (fun _ => sealed_) (fun _ => sealed_)
  exact .refl

theorem holds_processing (held : holds claimed batch) : batch.status = .processing := by
  unfold holds at held
  simp only [and_eq_true,decide_eq_true_eq] at held
  exact held.1.2

theorem suppress_quiet (claimed : Claimed) (reason : String) (batch : Batch) :
    Quiet batch (if holds claimed batch then
      { batch with
        status := .suppressed
        revision := batch.revision+1
        lastError := some reason
        leaseToken := none
        leaseExpiresAt := none }
    else batch) := by
  split
  · exact quiet_closed rfl rfl rfl rfl rfl (fun was => was) (fun same => nomatch same)
  exact .refl

theorem markSent_quiet (now : Int) (claimed : Claimed) (batch : Batch) :
    Quiet batch (if holds claimed batch then
      { batch with
        status := .sent
        revision := batch.revision+1
        deliveredAt := some now
        leaseToken := none
        leaseExpiresAt := none
        lastError := none }
    else batch) := by
  split
  · exact quiet_closed rfl rfl rfl rfl rfl (fun was => was) (fun same => nomatch same)
  exact .refl

include sealing in
theorem publish_quiet (now : Int) (claimed : Claimed) (added removed : Nat) (dispatch : String) :
    Quiet batch (if publishes now claimed dispatch batch then
      { batch with
        addedCount := added
        removedCount := removed
        dispatchFingerprint := batch.dispatchFingerprint <|> some dispatch
        publishedAt := batch.publishedAt <|> some now }
    else batch) := by
  split
  · rename_i published
    unfold publishes at published
    simp only [and_eq_true] at published
    have processing := holds_processing published.1.1
    refine quiet_closed rfl rfl rfl rfl ?_ (fun was => was) (fun _ => sealing processing)
    rw [processing]
    rfl
  exact .refl

include sealing in
theorem retry_quiet (now : Int) (claimed : Claimed) :
    Quiet batch (if holds claimed batch then
      { batch with
        status := if claimed.attemptCount+1 ≥ maxAttempts then .failed else .pending
        revision := batch.revision+1
        eligibleAt := now+2^(claimed.attemptCount+1)*5*60
        leaseToken := none
        leaseExpiresAt := none
        lastError := some "notification-dispatch-failed" }
    else batch) := by
  split
  · rename_i held
    have sealed_ := sealing (holds_processing held)
    refine quiet_closed rfl rfl rfl rfl ?_ (fun was => was) (fun _ => sealed_)
    show (_ && batch.sealedAt.isNone) = false
    rw [Option.isNone_eq_false_iff.mpr sealed_,Bool.and_false]
  exact .refl
end

section
variable {s : Subscription} {a : Association} {fingerprint : List Char → String} {before after : World}

def told (fingerprint : List Char → String) (s : Subscription) : Event → List (String × Bool)
  | .write call => reported s (fingerprint call.key) call
  | _ => []

theorem Sliced.still (sliced : Sliced s a before reports front last) (batches : after.batches = before.batches)
    (states : after.objectStates = before.objectStates) (minted : after.minted = before.minted)
    (calls : ∀ call ∈ after.calls, call ∈ before.calls ∨ ∀ recipient ∈ call.recipients, recipient.subscription = s →
      recipient.associationId = a.id ∧ a.covers call.key) : Kept s a before after reports := by
  have unchanged : after.batches = before.batches.map fun batch => batch := by
    rw [batches,map_id']
  refine sliced.quieted unchanged (fun _ _ => rfl) (fun _ _ => .refl) states (Nat.le_of_eq minted.symm) ?_
  intro call mem
  rcases calls call mem with old | new
  · exact sliced.calls call old
  exact new

theorem step_kept (sliced : Sliced s a before reports front last) (step : Step fingerprint before event after)
    (steady : Steady s a before) : Kept s a before after (reports++told fingerprint s event) := by
  unfold Step at step
  cases event with
  | tick | select =>
    dsimp only [advance] at step
    split at step
    · cases step
      simp only [told,append_nil]
      exact sliced.still rfl rfl rfl fun _ mem => Or.inl mem
    cases step
  | look =>
    dsimp only [advance] at step
    split at step
    · cases step
      simp only [told,append_nil]
      refine sliced.still rfl rfl rfl fun call mem => ?_
      rcases mem_snoc.mp mem with old | rfl
      · exact Or.inl old
      exact Or.inr fun recipient there mine => recipients_steady steady there mine
    cases step
  | write call =>
    dsimp only [advance] at step
    split at step
    · rename_i waiting
      cases step
      exact write_kept sliced steady waiting
    cases step
  | failExhausted =>
    dsimp only [advance] at step
    split at step
    · cases step
      simp only [told,append_nil]
      exact sliced.quieted rfl (fun batch _ => (failExhausted_quiet _ _ batch).subscription)
        (fun batch _ => failExhausted_quiet _ _ batch) rfl (Nat.le_refl _) sliced.calls
    cases step
  | claim =>
    dsimp only [advance] at step
    split at step
    · cases step
      simp only [told,append_nil]
      exact sliced.quieted rfl (fun batch _ => (claim_quiet _ _ _ batch).subscription) (fun batch _ => claim_quiet _ _ _ batch) rfl (Nat.le_succ _) sliced.calls
    cases step
  | suppress =>
    dsimp only [advance] at step
    split at step
    · cases step
      simp only [told,append_nil]
      exact sliced.quieted rfl (fun batch _ => (suppress_quiet _ _ batch).subscription)
        (fun batch _ => suppress_quiet _ _ batch) rfl (Nat.le_refl _) sliced.calls
    cases step
  | publish =>
    dsimp only [advance] at step
    split at step
    · cases step
      simp only [told,append_nil]
      refine sliced.quieted rfl (fun batch _ => ?_) (fun batch mem => publish_quiet (sliced.sealing batch mem) _ _ _ _ _)
        rfl (Nat.le_refl _) sliced.calls
      split
      · rfl
      rfl
    cases step
  | sent =>
    dsimp only [advance] at step
    split at step
    · cases step
      simp only [told,append_nil]
      exact sliced.quieted rfl (fun batch _ => (markSent_quiet _ _ batch).subscription)
        (fun batch _ => markSent_quiet _ _ batch) rfl (Nat.le_refl _) sliced.calls
    cases step
  | retry =>
    dsimp only [advance] at step
    split at step
    · cases step
      simp only [told,append_nil]
      refine sliced.quieted rfl (fun batch _ => ?_) (fun batch mem => retry_quiet (sliced.sealing batch mem) _ _)
        rfl (Nat.le_refl _) sliced.calls
      split
      · rfl
      rfl
    cases step
  | _ =>
    cases step
    simp only [told,append_nil]
    exact sliced.still rfl rfl rfl fun _ mem => Or.inl mem

def itemsOf (s : Subscription) (batches : List Batch) (object : String) : List Item :=
  ((own s batches).flatMap Batch.items).filter fun item => decide (item.object = object)

def netOf (items : List Item) : Int := total (fun item => worth item.currentPresent-worth item.baselinePresent) items

def reportsOf (fingerprint : List Char → String) (s : Subscription) (history : List (Transition World Event)) :
    List (String × Bool) :=
  history.flatMap fun taken => told fingerprint s taken.event

structure NetChanges (fingerprint : List Char → String) (s : Subscription) (history : List (Transition World Event))
    (world : World) : Prop where
  ids : Keyed Batch.id (own s world.batches)
  single : ((own s world.batches).filter Batch.open).length ≤ 1
  counts : ∀ batch ∈ own s world.batches, batch.open = true → Counts batch
  frozen : history.Pairwise fun earlier later => Frozen (own s earlier.after.batches) (own s later.after.batches)
  current : ∀ batch ∈ own s world.batches, batch.open = true → ∀ item ∈ batch.items,
    recorded world.objectStates s item.object = some item.currentPresent
  nets : ∀ object present, (reportsOf fingerprint s history).find? (fun report => decide (report.1 = object)) = some (object,present) →
    ∃ state, recorded world.objectStates s object = some state ∧
      netOf (itemsOf s world.batches object) = worth state-worth (!present)
  chains : ∀ object, (itemsOf s world.batches object).IsChain fun earlier later => later.baselinePresent = earlier.currentPresent

theorem Sliced.log (sliced : Sliced s a world reports front last) (object : String) :
    (ledger s world.objectStates front last).log object = (itemsOf s world.batches object).map entry := by
  have groups : (ledger s world.objectStates front last).closed.flatten++(ledger s world.objectStates front last).current =
      ((own s world.batches).flatMap Batch.items).map entry := by
    rw [sliced.batches,flatMap_append,map_append]
    congr 1
    · unfold ledger
      rw [map_flatMap]
      exact (flatMap_def ..).symm
    · cases last with
      | none => rfl
      | some => simp [ledger,entries]
  unfold Ledger.log itemsOf NetLedger.of
  rw [groups,filter_map]
  rfl

theorem netOf_entries (items : List Item) : net (items.map entry) = netOf items := by
  induction items with
  | nil => rfl
  | cons _ _ ih =>
    rw [map_cons,net,ih]
    rfl

theorem Sliced.opens (sliced : Sliced s a world reports front last) (mem : batch ∈ own s world.batches) (opens : batch.open) : last = some batch := by
  rw [sliced.batches] at mem
  rcases mem_append.mp mem with old | new
  · rw [sliced.spent batch old] at opens
    cases opens
  exact Option.mem_toList.mp new

theorem Sliced.single (sliced : Sliced s a world reports front last) : ((own s world.batches).filter Batch.open).length ≤ 1 := by
  have none_ : front.filter Batch.open = [] := by
    refine filter_eq_nil_iff.mpr fun batch mem => ?_
    rw [sliced.spent batch mem]
    exact Bool.false_ne_true
  rw [sliced.batches,filter_append,none_,nil_append]
  refine Nat.le_trans (length_filter_le ..) ?_
  cases last with
  | none => exact Nat.zero_le 1
  | some => exact Nat.le_refl 1

structure Followed (fingerprint : List Char → String) (s : Subscription) (a : Association)
    (history : List (Transition World Event)) (world : World) : Prop where
  sliced : ∃ front last, Sliced s a world (reportsOf fingerprint s history) front last
  pairs : history.Pairwise fun earlier later => Frozen (own s earlier.after.batches) (own s later.after.batches)
  frozen : ∀ taken ∈ history, Frozen (own s taken.after.batches) (own s world.batches)

theorem run_followed (path : Runs (Recorded (Guarded (Step fingerprint) fun world _ => Steady s a world))
    (.initial associations preferences) history world) : Followed fingerprint s a history world := by
  refine path.preserves_history (Followed fingerprint s a) ?_ ⟨⟨[],none,initial_sliced s a⟩,List.Pairwise.nil,?_⟩
  · intro earlier _ taken _ followed recorded
    obtain ⟨rfl,rfl,step,steady⟩ := recorded
    obtain ⟨_,_,sliced⟩ := followed.sliced
    have kept := step_kept sliced step steady
    have later : ∀ one ∈ earlier, Frozen (own s one.after.batches) (own s taken.after.batches) := fun one mem =>
      (followed.frozen one mem).trans kept.frozen
    refine ⟨?_,?_,?_⟩
    · unfold reportsOf at kept ⊢
      rw [flatMap_append,flatMap_singleton]
      exact kept.sliced
    · refine pairwise_append.mpr ⟨followed.pairs,pairwise_singleton _ _,?_⟩
      intro one mem _ new
      cases mem_singleton.mp new
      exact later one mem
    intro one mem
    rcases mem_snoc.mp mem with old | rfl
    · exact later one old
    exact .refl
  intro _ mem
  cases mem

theorem batches_net (path : Runs (Recorded (Guarded (Step fingerprint) fun world _ => Steady s a world))
    (.initial associations preferences) history world) : NetChanges fingerprint s history world := by
  have followed := run_followed path
  obtain ⟨_,_,sliced⟩ := followed.sliced
  refine ⟨sliced.keyed,sliced.single,?_,followed.pairs,?_,?_,?_⟩
  · intro batch member opens
    exact (sliced.open_ batch (sliced.opens member opens)).2
  · intro _ member opens _ inside
    have same := sliced.opens member opens
    subst same
    exact sliced.balanced.current (mem_map_of_mem inside)
  · intro _ _ first
    obtain ⟨state,stored,nets⟩ := sliced.balanced.nets first
    refine ⟨state,stored,?_⟩
    rw [←nets,sliced.log,netOf_entries]
  intro object
  have chained := sliced.balanced.chained object
  rw [sliced.log] at chained
  exact (isChain_map entry).mp chained
end

def folder : Association := ⟨"association","account",some "grant","docs/".toList,true⟩
def reader : Subscription := ⟨"account","grant","reader"⟩

theorem steady_tables (associations : world.associations = [folder]) (preferences : world.preferences = [⟨reader,.both⟩]) : Steady reader folder world := by
  refine ⟨?_,rfl,rfl,?_,?_,?_⟩
  · rw [associations]
    exact mem_singleton_self folder
  · rw [associations]
    intro _ mem _ _
    exact mem_singleton.mp mem
  · rw [preferences]
    exact ⟨_,mem_singleton_self _,rfl⟩
  rw [preferences]
  intro _ mem _
  cases mem_singleton.mp mem
  rfl

def steadily (world : World) (event : Event) : Option World :=
  if world.associations = [folder] ∧ world.preferences = [⟨reader,.both⟩] then advance String.ofList world event else none

theorem steadily_guarded (path : Runs (Recorded fun s e t => steadily s e = some t) origin history world) :
    Runs (Recorded (Guarded (Step String.ofList) fun world _ => Steady reader folder world)) origin history world := by
  refine path.mono ?_
  intro before taken after recorded
  obtain ⟨start,stop,step⟩ := recorded
  unfold steadily at step
  split at step
  · rename_i tables
    exact ⟨start,stop,step,steady_tables tables.1 tables.2⟩
  cases step

def comesAndGoes : List Event :=
  let call (name : String) (present : Bool) : Call := ⟨name.toList,present,[⟨reader,"association"⟩]⟩
  [.look "docs/a".toList true,.write (call "docs/a" true),.look "docs/b".toList true,.write (call "docs/b" true),
    .tick 400,.select,.claim ⟨1,3,0⟩,.look "docs/a".toList false,.write (call "docs/a" false),
    .publish ⟨1,4,0⟩ 2 0 "mail",.retry ⟨1,4,0⟩,.look "docs/a".toList true,.write (call "docs/a" true)]

def comesAndGoesWorld : World := (follow steadily (.initial [folder] [⟨reader,.both⟩]) comesAndGoes).getD (.initial [] [])

theorem batches_net_example : NetChanges String.ofList reader (tracked steadily (.initial [folder] [⟨reader,.both⟩]) comesAndGoes) comesAndGoesWorld :=
  batches_net (steadily_guarded (Runs.of_tracked (by decide +kernel)))
end LedgeTopOps.FolderNetting
