import LedgeTopOps.FolderBatches
import LedgeTopOps.NetLedger
import LedgeTopOps.KeyedRows
import LedgeTopOps.StepRuns

namespace LedgeTopOps.FolderNetting
open List hiding after
open KeyedRows StepRuns FolderBatches
open NetLedger (Entry Ledger Balanced net put even)

section
variable (s : Subscription) (a : Association)

structure Steady (world : World) : Prop where
  present : a ∈ world.associations
  live : a.live = true
  grants : a.grants s = true
  only : ∀ other ∈ world.associations, other.live = true → other.grants s = true → other = a
  preferred : ∃ preference ∈ world.preferences, preference.subscription = s
  both : ∀ preference ∈ world.preferences, preference.subscription = s → preference.mode = .both

def own (batches : List Batch) : List Batch := batches.filter fun batch => decide (batch.subscription = s)
def entry (item : Item) : Entry String := ⟨item.object,item.baselinePresent,item.currentPresent⟩
def entries (batch : Batch) : List (Entry String) := batch.items.map entry

def ledger (states : List ObjectState) (front : List Batch) (last : Option Batch) : Ledger String :=
  ⟨front.map entries,(last.map entries).getD [],recorded states s⟩

structure Counts (batch : Batch) : Prop where
  added : batch.addedCount = counted batch.items false true
  removed : batch.removedCount = counted batch.items true false
  some_ : ¬(batch.addedCount = 0 ∧ batch.removedCount = 0)

structure Sliced (world : World) (reports : List (String × Bool)) (front : List Batch) (last : Option Batch) : Prop where
  batches : own s world.batches = front++last.toList
  spent : ∀ batch ∈ front, batch.open = false
  open_ : ∀ batch ∈ last, batch.open = true ∧ Counts batch
  balanced : Balanced (ledger s world.objectStates front last) reports
  keyed : Keyed Batch.id (own s world.batches)
  fresh : ∀ batch ∈ own s world.batches, batch.id < world.minted
  tokens : ∀ batch ∈ own s world.batches, ∀ item ∈ batch.items, item.eventToken < world.minted
  associated : ∀ batch ∈ own s world.batches, batch.associationId = a.id
  sealing : ∀ batch ∈ own s world.batches, batch.status = .processing → batch.sealedAt.isSome = true
  calls : ∀ call ∈ world.calls, ∀ recipient ∈ call.recipients, recipient.subscription = s →
    recipient.associationId = a.id ∧ a.covers call.key = true

theorem initial_sliced : Sliced s a (.initial associations preferences) [] [] none where
  batches := rfl
  spent _ mem := nomatch mem
  open_ _ mem := nomatch mem
  balanced := .empty
  keyed := nodup_nil
  fresh _ mem := nomatch mem
  tokens _ mem := nomatch mem
  associated _ mem := nomatch mem
  sealing _ mem := nomatch mem
  calls _ mem := nomatch mem
end

section
theorem counted_zero : counted items baseline current = 0 ↔ ∀ item ∈ items, ¬(item.baselinePresent = baseline ∧ item.currentPresent = current) := by
  unfold counted
  rw [length_eq_zero_iff,filter_eq_nil_iff]
  simp only [Bool.and_eq_true,decide_eq_true_eq]

theorem even_items (items : List Item) : even (items.map entry) ↔ counted items false true = 0 ∧ counted items true false = 0 := by
  rw [counted_zero,counted_zero]
  unfold even
  rw [all_eq_true]
  constructor
  · intro same
    refine ⟨fun item mem moved => ?_,fun item mem moved => ?_⟩
    · have equal := same (entry item) (mem_map_of_mem mem)
      simp [entry,moved.1,moved.2] at equal
    have equal := same (entry item) (mem_map_of_mem mem)
    simp [entry,moved.1,moved.2] at equal
  rintro ⟨added,removed⟩ one mem
  obtain ⟨item,there,rfl⟩ := mem_map.mp mem
  have notAdded := added item there
  have notRemoved := removed item there
  cases was : item.baselinePresent <;> cases is : item.currentPresent <;> simp_all [entry]

theorem Counts.uneven (counts : Counts batch) : even (entries batch) = false := by
  rw [Bool.eq_false_iff]
  intro same
  have zero := (even_items batch.items).mp same
  exact counts.some_ ⟨counts.added.trans zero.1,counts.removed.trans zero.2⟩

theorem Counts.entries (counts : Counts batch) : entries batch ≠ [] := by
  intro none_
  have uneven := counts.uneven
  rw [none_] at uneven
  cases uneven
end

structure Quiet (old new : Batch) : Prop where
  id : new.id = old.id
  subscription : new.subscription = old.subscription
  associationId : new.associationId = old.associationId
  items : new.items = old.items
  opens : new.open = true → old.open = true ∧ new.addedCount = old.addedCount ∧ new.removedCount = old.removedCount
  sealing : old.sealedAt.isSome = true → new.sealedAt.isSome = true
  processing : new.status = .processing → new.sealedAt.isSome = true ∨ new = old

theorem Quiet.refl : Quiet batch batch :=
  ⟨rfl,rfl,rfl,rfl,fun opens => ⟨opens,rfl,rfl⟩,fun was => was,fun _ => Or.inr rfl⟩

theorem own_map {change : Batch → Batch} (kept : ∀ batch ∈ batches, (change batch).subscription = batch.subscription) :
    own s (batches.map change) = (own s batches).map change := by
  unfold own
  rw [filter_map]
  congr 1
  refine filter_congr fun batch mem => ?_
  simp [kept batch mem]

theorem mem_own : batch ∈ own s batches ↔ batch ∈ batches ∧ batch.subscription = s := by
  unfold own
  rw [mem_filter,decide_eq_true_eq]

def Frozen (before after : List Batch) : Prop :=
  ∀ batch ∈ before, batch.sealedAt.isSome = true →
    ∃ same ∈ after, same.id = batch.id ∧ same.items = batch.items ∧ same.sealedAt.isSome = true

theorem Frozen.refl : Frozen batches batches := fun batch mem sealed_ => ⟨batch,mem,rfl,rfl,sealed_⟩

theorem Frozen.trans (left : Frozen before middle) (right : Frozen middle after) : Frozen before after := by
  intro batch mem sealed_
  obtain ⟨mid,there,id,items,still⟩ := left batch mem sealed_
  obtain ⟨same,here,laterId,laterItems,ever⟩ := right mid there still
  exact ⟨same,here,laterId.trans id,laterItems.trans items,ever⟩

structure Kept (s : Subscription) (a : Association) (before after : World) (reports : List (String × Bool)) : Prop where
  sliced : ∃ front last, Sliced s a after reports front last
  frozen : Frozen (own s before.batches) (own s after.batches)

section
theorem Quiet.entries (quiet : Quiet old new) : entries new = entries old := by
  unfold FolderNetting.entries
  rw [quiet.items]

theorem ledger_quiet (front : List Batch) (last : Option Batch) (quiet : ∀ batch ∈ front, Quiet batch (change batch))
    (quietLast : ∀ batch ∈ last, Quiet batch (change batch)) : ledger s states (front.map change) (last.map change) = ledger s states front last := by
  have fronts : (front.map change).map entries = front.map entries := by
    rw [map_map]
    exact map_congr_left fun batch mem => (quiet batch mem).entries
  have lasts : (last.map change).map entries = last.map entries := by
    cases last with
    | none => rfl
    | some batch => exact congrArg some (quietLast batch rfl).entries
  unfold ledger
  rw [fronts,lasts]

theorem ledger_closed (front : List Batch) (batch : Batch) (some_ : entries batch ≠ []) :
    ledger s states (front++[batch]) none = (ledger s states front (some batch)).close := by
  unfold ledger Ledger.close
  dsimp only [Option.map_some,Option.getD_some]
  rw [if_neg some_]
  simp

theorem Quiet.opens_counts (quiet : Quiet old new) (opens : new.open) (counts : Counts old) : Counts new := by
  obtain ⟨-,added,removed⟩ := quiet.opens opens
  refine ⟨?_,?_,?_⟩
  · rw [added,quiet.items]
    exact counts.added
  · rw [removed,quiet.items]
    exact counts.removed
  rw [added,removed]
  exact counts.some_

theorem Sliced.quieted (sliced : Sliced s a before reports front last) (batches : after.batches = before.batches.map change)
    (kept : ∀ batch ∈ before.batches, (change batch).subscription = batch.subscription) (quiet : ∀ batch ∈ own s before.batches, Quiet batch (change batch))
    (states : after.objectStates = before.objectStates) (minted : before.minted ≤ after.minted)
    (calls : ∀ call ∈ after.calls, ∀ recipient ∈ call.recipients, recipient.subscription = s →
      recipient.associationId = a.id ∧ a.covers call.key) : Kept s a before after reports := by
  have owned : own s after.batches = (own s before.batches).map change := by
    rw [batches]
    exact own_map kept
  have source : ∀ batch ∈ own s after.batches, ∃ old ∈ own s before.batches, batch = change old ∧ Quiet old batch := by
    intro _ mem
    rw [owned] at mem
    obtain ⟨old,there,rfl⟩ := mem_map.mp mem
    exact ⟨old,there,rfl,quiet old there⟩
  have inside : ∀ batch ∈ front++last.toList, Quiet batch (change batch) := by
    rw [←sliced.batches]
    exact quiet
  have fronts : ∀ batch ∈ front, Quiet batch (change batch) := fun batch mem =>
    inside batch (mem_append_left _ mem)
  have lasts : ∀ batch ∈ last, Quiet batch (change batch) := fun batch mem =>
    inside batch (mem_append_right _ (Option.mem_toList.mpr mem))
  have spent : ∀ batch ∈ front.map change, batch.open = false := by
    intro _ mem
    obtain ⟨old,there,rfl⟩ := mem_map.mp mem
    cases opens : (change old).open with
    | false => rfl
    | true =>
      have was := sliced.spent old there
      rw [((fronts old there).opens opens).1] at was
      cases was
  have common (front' : List Batch) (last' : Option Batch) (split : own s after.batches = front'++last'.toList)
      (spent' : ∀ batch ∈ front', batch.open = false) (open' : ∀ batch ∈ last', batch.open ∧ Counts batch)
      (balanced : Balanced (ledger s after.objectStates front' last') reports) : Sliced s a after reports front' last' := by
    refine ⟨split,spent',open',balanced,?_,?_,?_,?_,?_,calls⟩
    · have ids : (own s before.batches).map (Batch.id ∘ change) = (own s before.batches).map Batch.id :=
        map_congr_left fun batch mem => (quiet batch mem).id
      unfold Keyed
      rw [owned,map_map,ids]
      exact sliced.keyed
    · intro batch mem
      obtain ⟨old,there,-,same⟩ := source batch mem
      rw [same.id]
      exact Nat.lt_of_lt_of_le (sliced.fresh old there) minted
    · intro batch mem item within
      obtain ⟨old,there,-,same⟩ := source batch mem
      rw [same.items] at within
      exact Nat.lt_of_lt_of_le (sliced.tokens old there item within) minted
    · intro batch mem
      obtain ⟨old,there,-,same⟩ := source batch mem
      rw [same.associationId]
      exact sliced.associated old there
    intro batch mem processing
    obtain ⟨old,there,-,same⟩ := source batch mem
    rcases same.processing processing with sealed_ | equal
    · exact sealed_
    rw [equal] at processing ⊢
    exact sliced.sealing old there processing
  have same : ledger s before.objectStates (front.map change) (last.map change) = ledger s before.objectStates front last :=
    ledger_quiet front last fronts lasts
  refine ⟨?_,?_⟩
  · cases last with
    | none =>
      refine ⟨front.map change,none,common _ _ ?_ spent (fun _ mem => nomatch mem) ?_⟩
      · rw [owned,sliced.batches,map_append]
        rfl
      rw [states]
      exact same ▸ sliced.balanced
    | some batch =>
      have quietly := lasts batch rfl
      obtain ⟨-,counts⟩ := sliced.open_ batch rfl
      cases opens : (change batch).open with
      | true =>
        refine ⟨front.map change,some (change batch),common _ _ ?_ spent ?_ ?_⟩
        · rw [owned,sliced.batches,map_append]
          rfl
        · intro _ mem
          cases mem
          exact ⟨opens,quietly.opens_counts opens counts⟩
        rw [states]
        exact same ▸ sliced.balanced
      | false =>
        refine ⟨front.map change++[change batch],none,common _ _ ?_ ?_ (fun _ mem => nomatch mem) ?_⟩
        · rw [owned,sliced.batches,map_append]
          simp
        · intro one mem
          rcases mem_snoc.mp mem with old | rfl
          · exact spent one old
          exact opens
        have some_ : entries (change batch) ≠ [] := by
          rw [quietly.entries]
          exact counts.entries
        rw [states,ledger_closed _ _ some_]
        exact (same ▸ sliced.balanced).close
  intro batch mem sealed_
  refine ⟨change batch,?_,(quiet batch mem).id,(quiet batch mem).items,(quiet batch mem).sealing sealed_⟩
  rw [owned]
  exact mem_map_of_mem mem
end

variable {a : Association}
  {chosen : List Target} {batches : List Batch}

theorem live_target (steady : Steady s a world) (covers : a.covers key) (mine : target.subscription = s)
    (aimed : target.associationId = a.id) : live world key target := by
  obtain ⟨preference,there,own_⟩ := steady.preferred
  refine any_eq_true.mpr ⟨a,steady.present,?_⟩
  have preferred : (world.preferences.any fun preference =>
      decide (preference.subscription = target.subscription) && decide (preference.mode ≠ .off)) := by
    refine any_eq_true.mpr ⟨preference,there,?_⟩
    rw [decide_eq_true (own_.trans mine.symm),steady.both preference there own_]
    rfl
  rw [decide_eq_true aimed.symm,steady.live,mine,steady.grants,covers,←mine,preferred]
  rfl

theorem subscribed_target (steady : Steady s a world) (mine : target.subscription = s) : subscribed world present target := by
  obtain ⟨preference,there,own_⟩ := steady.preferred
  refine any_eq_true.mpr ⟨preference,there,?_⟩
  rw [decide_eq_true (own_.trans mine.symm),steady.both preference there own_]
  simp

theorem own_suppressReplaced (associated : ∀ batch ∈ own s batches, batch.associationId = a.id)
    (aimed : ∀ target ∈ chosen, target.subscription = s → target.associationId = a.id) : own s (suppressReplaced world key chosen batches) = own s batches := by
  unfold suppressReplaced
  rw [own_map]
  · conv_rhs => rw [←map_id (own s batches)]
    refine map_congr_left fun batch mem => if_neg ?_
    rintro ⟨-,replaced⟩
    obtain ⟨target,there,found⟩ := any_eq_true.mp replaced
    simp only [Bool.and_eq_true,decide_eq_true_eq] at found
    have same := aimed target there (found.1.1.trans (mem_own.mp mem).2)
    exact found.1.2 (same.trans (associated batch mem).symm)
  · intro batch _
    split
    · rfl
    rfl

theorem own_insertBatch (now : Int) (target : Target) : own s (insertBatch now batches target) =
    if target.subscription = s then insertBatch now (own s batches) target else own s batches := by
  by_cases mine : target.subscription = s
  · have same : (batches.any fun batch => decide (batch.subscription = target.subscription) && batch.open) =
        ((own s batches).any fun batch => decide (batch.subscription = target.subscription) && batch.open) := by
      rw [Bool.eq_iff_iff,any_eq_true,any_eq_true]
      constructor
      · rintro ⟨batch,there,found⟩
        have here : batch.subscription = target.subscription := by
          rw [Bool.and_eq_true,decide_eq_true_eq] at found
          exact found.1
        exact ⟨batch,mem_own.mpr ⟨there,here.trans mine⟩,found⟩
      rintro ⟨batch,there,found⟩
      exact ⟨batch,(mem_own.mp there).1,found⟩
    unfold insertBatch
    rw [same]
    split
    · rfl
    simp [own,newBatch,mine]
  unfold insertBatch
  split
  · rfl
  simp [own,newBatch,mine]

theorem own_insertions (now : Int) (inserted : List Target) (batches : List Batch) : own s (inserted.foldl (insertBatch now) batches) =
      (inserted.filter fun target => decide (target.subscription = s)).foldl (insertBatch now) (own s batches) := by
  induction inserted generalizing batches with
  | nil => rfl
  | cons target _ ih =>
    rw [foldl_cons,ih,own_insertBatch]
    by_cases mine : target.subscription = s
    · rw [if_pos mine,filter_cons_of_pos (by simpa using mine),foldl_cons]
    rw [if_neg mine,filter_cons_of_neg (by simpa using mine)]

theorem insertions_open (now : Int) (inserted : List Target) (mine : ∀ target ∈ inserted, target.subscription = s)
    (there : ∃ batch ∈ batches, batch.subscription = s ∧ batch.open) : inserted.foldl (insertBatch now) batches = batches := by
  induction inserted with
  | nil => rfl
  | cons target _ ih =>
    obtain ⟨batch,mem,own_,opens⟩ := there
    have conflict : (batches.any fun batch => decide (batch.subscription = target.subscription) && batch.open) := by
      refine any_eq_true.mpr ⟨batch,mem,?_⟩
      rw [decide_eq_true (own_.trans (mine target (mem_cons_self ..)).symm),opens]
      rfl
    have first : insertBatch now batches target = batches := if_pos conflict
    rw [foldl_cons,first]
    exact ih fun one mem => mine one (mem_cons_of_mem _ mem)

theorem insertions_closed (now : Int) (target : Target) (rest : List Target)
    (mine : ∀ one ∈ target :: rest, one.subscription = s) (spent : ∀ batch ∈ batches, batch.open = false) :
    (target :: rest).foldl (insertBatch now) batches = batches++[newBatch now target] := by
  have free : ¬(batches.any fun batch => decide (batch.subscription = target.subscription) && batch.open) := by
    intro conflict
    obtain ⟨batch,mem,found⟩ := any_eq_true.mp conflict
    rw [spent batch mem,Bool.and_false] at found
    cases found
  have first : insertBatch now batches target = batches++[newBatch now target] := if_neg free
  rw [foldl_cons,first]
  refine insertions_open now rest (fun one mem => mine one (mem_cons_of_mem _ mem)) ?_
  exact ⟨newBatch now target,mem_append_right _ (mem_singleton_self _),mine target (mem_cons_self ..),rfl⟩

def itemised (key : List Char) (object : String) (present : Bool) (token : Nat) (batch : Batch) : Batch :=
  { batch with items := upsertItem batch.items object key present token }

def recounted (now : Int) (batch : Batch) : Batch :=
  { batch with
    revision := batch.revision+1
    addedCount := counted batch.items false true
    removedCount := counted batch.items true false
    eligibleAt := now+300 }

def settled (now : Int) (batch : Batch) : Batch :=
  if batch.addedCount = 0 ∧ batch.removedCount = 0 then
    { batch with
      status := .cancelled
      revision := batch.revision+1
      sealedAt := some now
      lastError := some "net-changes-cancelled" }
  else batch

def written (now : Int) (key : List Char) (object : String) (present : Bool) (token : Nat) (batch : Batch) : Batch :=
  settled now (recounted now (itemised key object present token batch))

theorem upsertItem_entries (items : List Item) : (upsertItem items object key present token).map entry = put (items.map entry) object present := by
  have same : hasItem items object = (items.map entry).any fun entry => decide (entry.object = object) := by
    rw [any_map]
    rfl
  unfold upsertItem put
  rw [same]
  split
  · rw [map_map,map_map]
    refine map_congr_left fun item _ => ?_
    by_cases here : item.object = object
    · by_cases known : item.currentPresent = present
      · simp [entry,here,known]
      · simp [entry,here,known]
    simp [entry,here]
  rw [map_append]
  rfl

theorem upsertItem_touched (changed : ∀ item ∈ items, item.object = object → item.currentPresent ≠ present) :
    ((upsertItem items object key present token).any fun item => decide (item.eventToken = token)) := by
  unfold upsertItem
  split
  · rename_i has
    obtain ⟨item,there,found⟩ := any_eq_true.mp has
    have here : item.object = object := of_decide_eq_true found
    refine any_eq_true.mpr ⟨{ item with currentPresent := present, eventToken := token },?_,decide_eq_true rfl⟩
    refine mem_map.mpr ⟨item,there,if_pos ⟨here,changed item there here⟩⟩
  refine any_eq_true.mpr ⟨_,mem_append_right _ (mem_singleton_self _),decide_eq_true rfl⟩

theorem upsertItem_tokens (old : ∀ item ∈ items, item.eventToken < bound) (new : token < bound) :
    ∀ item ∈ upsertItem items object key present token, item.eventToken < bound := by
  intro item mem
  unfold upsertItem at mem
  split at mem
  · obtain ⟨was,there,rfl⟩ := mem_map.mp mem
    split
    · exact new
    exact old was there
  rcases mem_snoc.mp mem with was | rfl
  · exact old item was
  exact new

theorem insertItems_subscription (batch : Batch) (condition : Prop) [Decidable condition] (items : List Item) :
    (if condition then { batch with items := items } else batch).subscription = batch.subscription := by
  split
  · rfl
  rfl

theorem own_insertItems : own s (insertItems world key object present token chosen batches) =
    insertItems world key object present token chosen (own s batches) :=
  own_map fun batch _ => insertItems_subscription batch _ _

theorem own_recount (now : Int) : own s (recount now token batches) = recount now token (own s batches) := by
  refine own_map fun batch _ => ?_
  split
  · rfl
  rfl

theorem own_cancelNetZero (now : Int) : own s (cancelNetZero now token batches) = cancelNetZero now token (own s batches) := by
  refine own_map fun batch _ => ?_
  split
  · rfl
  rfl

theorem map_closed {change : Batch → Batch} {condition : Batch → Prop} [DecidablePred condition] (spent : ∀ batch ∈ batches, batch.open = false) :
    (batches.map fun batch => if batch.open ∧ condition batch then change batch else batch) = batches := by
  conv_rhs => rw [←map_id batches]
  refine map_congr_left fun batch mem => if_neg ?_
  rintro ⟨opens,-⟩
  rw [spent batch mem] at opens
  cases opens

theorem map_open {change : Batch → Batch} {condition : Batch → Prop} [DecidablePred condition]
    (spent : ∀ batch ∈ front, batch.open = false) (opens : last.open) :
    ((front++[last]).map fun batch => if batch.open ∧ condition batch then change batch else batch) =
      front++[if condition last then change last else last] := by
  rw [map_append,map_closed spent]
  simp [opens]

theorem written_batches (spent : ∀ batch ∈ front, batch.open = false) (opens : last.open)
    (aimed : (chosen.any fun target => decide (target.subscription = last.subscription)
      && decide (target.associationId = last.associationId) && live world key target && different world object present target
      && (subscribed world present target || hasItem last.items object)))
    (changed : ∀ item ∈ last.items, item.object = object → item.currentPresent ≠ present) (now : Int) :
    cancelNetZero now token (recount now token (insertItems world key object present token chosen (front++[last]))) =
      front++[written now key object present token last] := by
  have first : insertItems world key object present token chosen (front++[last]) = front++[itemised key object present token last] := by
    unfold insertItems
    rw [map_open spent opens,if_pos aimed]
    rfl
  have hit : touched (itemised key object present token last) token := upsertItem_touched changed
  have second : recount now token (front++[itemised key object present token last]) = front++[recounted now (itemised key object present token last)] := by
    have still : (itemised key object present token last).open := opens
    unfold recount
    rw [map_open spent still,if_pos hit]
    rfl
  have third : cancelNetZero now token (front++[recounted now (itemised key object present token last)]) =
      front++[written now key object present token last] := by
    have still : (recounted now (itemised key object present token last)).open := opens
    have marked : touched (recounted now (itemised key object present token last)) token := hit
    unfold cancelNetZero
    rw [map_open spent still]
    unfold written settled
    simp only [marked,and_true]
  rw [first,second,third]

theorem unwritten_batches (unaimed : ∀ target ∈ chosen, target.subscription = s → different world object present target = false)
    (own_ : ∀ batch ∈ batches, batch.subscription = s) (tokens : ∀ batch ∈ batches, ∀ item ∈ batch.items, item.eventToken < token) (now : Int) :
    cancelNetZero now token (recount now token (insertItems world key object present token chosen batches)) = batches := by
  have untouched : ∀ batch ∈ batches, touched batch token = false := by
    intro batch mem
    cases hit : touched batch token with
    | false => rfl
    | true =>
      obtain ⟨item,there,same⟩ := any_eq_true.mp hit
      have low := tokens batch mem item there
      rw [of_decide_eq_true same] at low
      exact absurd low (Nat.lt_irrefl token)
  have first : insertItems world key object present token chosen batches = batches := by
    conv_rhs => rw [←map_id batches]
    refine map_congr_left fun batch mem => if_neg ?_
    rintro ⟨-,aimed⟩
    obtain ⟨target,there,found⟩ := any_eq_true.mp aimed
    simp only [Bool.and_eq_true,decide_eq_true_eq] at found
    have none_ := unaimed target there (found.1.1.1.1.trans (own_ batch mem))
    rw [found.1.2] at none_
    cases none_
  have second : recount now token batches = batches := by
    conv_rhs => rw [←map_id batches]
    refine map_congr_left fun batch mem => if_neg ?_
    rintro ⟨-,hit⟩
    rw [untouched batch mem] at hit
    cases hit
  have third : cancelNetZero now token batches = batches := by
    conv_rhs => rw [←map_id batches]
    refine map_congr_left fun batch mem => if_neg ?_
    rintro ⟨-,-,-,hit⟩
    rw [untouched batch mem] at hit
    cases hit
  rw [first,second,third]

theorem recorded_store (states : List ObjectState) (sub : Subscription) (object one : String) (present : Bool) :
    recorded (storeObjectState states sub object present) s one = if sub = s ∧ object = one then some present else recorded states s one := by
  unfold storeObjectState recorded
  split
  · rename_i known
    have keys : (fun row : ObjectState => decide (row.subscription = s) && decide (row.object = one)) ∘
        (fun row => if row.subscription = sub ∧ row.object = object then { row with currentPresent := present } else row) =
        fun row => decide (row.subscription = s) && decide (row.object = one) := by
      funext row
      show (decide (ObjectState.subscription (if _ then _ else _) = s) && decide (ObjectState.object (if _ then _ else _) = one)) = _
      split
      · rfl
      rfl
    rw [List.find?_map,keys]
    cases found : states.find? fun row => decide (row.subscription = s) && decide (row.object = one) with
    | none =>
      rw [if_neg]
      · rfl
      · rintro ⟨rfl,rfl⟩
        obtain ⟨row,there,same⟩ := any_eq_true.mp known
        exact find?_eq_none.mp found row there same
    | some row =>
      have same := find?_some found
      simp only [Bool.and_eq_true,decide_eq_true_eq] at same
      obtain ⟨rfl,rfl⟩ := same
      by_cases here : row.subscription = sub ∧ row.object = object
      · rw [if_pos ⟨here.1.symm,here.2.symm⟩]
        simp [here]
      rw [if_neg fun back => here ⟨back.1.symm,back.2.symm⟩]
      simp [here]
  rename_i unknown
  rw [find?_append]
  by_cases here : sub = s ∧ object = one
  · obtain ⟨rfl,rfl⟩ := here
    have none_ : states.find? (fun row => decide (row.subscription = sub) && decide (row.object = object)) = none := by
      refine find?_eq_none.mpr fun row there same => unknown ?_
      exact any_eq_true.mpr ⟨row,there,same⟩
    rw [none_,if_pos ⟨rfl,rfl⟩]
    simp
  have none_ : [(⟨sub,object,present⟩ : ObjectState)].find? (fun row => decide (row.subscription = s) && decide (row.object = one)) = none := by
    simpa using here
  rw [none_,if_neg here]
  simp

theorem recorded_stores (written : List Target) (states : List ObjectState) (one : String) :
    recorded (written.foldl (fun states target => storeObjectState states target.subscription object present) states) s one =
      if (written.any fun target => decide (target.subscription = s)) ∧ object = one then some present else recorded states s one := by
  induction written generalizing states with
  | nil => simp
  | cons target _ ih =>
    rw [foldl_cons,ih,recorded_store]
    by_cases same : object = one
    · by_cases mine : target.subscription = s
      · simp [same,mine]
      · simp [same,mine]
    simp [same]
end LedgeTopOps.FolderNetting
