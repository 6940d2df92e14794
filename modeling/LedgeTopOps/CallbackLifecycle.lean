import LedgeTopOps.CallbackDispatcher
import Mathlib.Data.List.Perm.Subperm

namespace LedgeTopOps.CallbackLifecycle
open List hiding after all length
open LittleEndian KeyedRows StepRuns CallbackDispatcher
open HydrationSink (CloudFilesOperationContext)

structure Keeps (entries : List Entry) (target : Nat) (change : Entry → Entry) : Prop where
  id : ∀ row ∈ entries, row.id = target → (change row).id = row.id
  identity : ∀ row ∈ entries, row.id = target → (change row).identity = row.identity
  context : ∀ row ∈ entries, row.id = target → (change row).context = row.context
  completed : ∀ row ∈ entries, row.id = target → isCompleted (change row) = isCompleted row

structure Table (provider : Provider) (dispatcher : Dispatcher) : Prop where
  numbered : dispatcher.entries.map Entry.id = range dispatcher.entries.length
  keyed : Keyed Registration.key dispatcher.requests
  held : ∀ request ∈ dispatcher.requests, ∃ entry ∈ dispatcher.entries,
    entry.id = request.entry ∧ entry.key = request.key ∧ isCompleted entry = false
  listed : ∀ entry ∈ dispatcher.entries, isCompleted entry = false → ⟨entry.key,entry.id⟩ ∈ dispatcher.requests
  bounded : dispatcher.requests.length ≤ provider.maximumRequests

def covers : Drain → Nat → Prop
  | .cancelling _ _ all,id => id ∈ all
  | .observing _ all,id => id ∈ all
  | .completing all,id => id ∈ all
  | .done,_ => False

structure Stopping (dispatcher : Dispatcher) : Prop where
  begun : dispatcher.stopping = dispatcher.drain.isSome
  covered : ∀ drain, dispatcher.drain = some drain → ∀ entry ∈ dispatcher.entries, isCompleted entry = false →
    covers drain entry.id
  disposals : dispatcher.disposals = if dispatcher.drain = some .done then 1 else 0

section
variable {after : Dispatcher}

theorem Table.distinct (table : Table provider before) : Keyed Entry.id before.entries := by
  unfold Keyed
  rw [table.numbered]
  exact nodup_range

theorem Table.apart (table : Table provider before) (left : entry ∈ before.entries) (right : other ∈ before.entries)
    (open_ : isCompleted entry = false) (unfinished : isCompleted other = false) (same : entry.key = other.key) : entry = other := by
  have here := table.listed entry left open_
  have there := table.listed other right unfinished
  have one : (⟨entry.key,entry.id⟩ : Registration) = ⟨other.key,other.id⟩ := table.keyed.unique here there same
  exact table.distinct.unique left right (congrArg Registration.entry one)

theorem touched_entry (keeps : Keeps entries target change) (member : entry ∈ amend Entry.id entries target change) :
    ∃ old ∈ entries, old.id = entry.id ∧ old.key = entry.key ∧ old.identity = entry.identity ∧
      old.context = entry.context ∧ isCompleted old = isCompleted entry := by
  rcases mem_amend.mp member with ⟨there,-⟩ | ⟨old,there,here,rfl⟩
  · exact ⟨entry,there,rfl,rfl,rfl,rfl,rfl⟩
  refine ⟨old,there,(keeps.id old there here).symm,?_,(keeps.identity old there here).symm,
    (keeps.context old there here).symm,(keeps.completed old there here).symm⟩
  unfold Entry.key
  rw [keeps.context old there here]

theorem unchanged_keeps (entries : List Entry) : Keeps entries 0 fun entry => entry := by
  constructor <;> intro row _ _ <;> rfl

theorem unchanged_amend : amend Entry.id entries 0 (fun entry => entry) = entries := by
  unfold amend
  simp

theorem kept_entry (keeps : Keeps entries target change) (member : entry ∈ entries) :
    ∃ now ∈ amend Entry.id entries target change, now.id = entry.id ∧ now.key = entry.key ∧ isCompleted now = isCompleted entry := by
  by_cases here : entry.id = target
  · refine ⟨change entry,mem_amend.mpr (Or.inr ⟨entry,member,here,rfl⟩),keeps.id entry member here,?_,
      keeps.completed entry member here⟩
    unfold Entry.key
    rw [keeps.context entry member here]
  exact ⟨entry,mem_amend.mpr (Or.inl ⟨member,here⟩),rfl,rfl,rfl⟩

theorem amend_length : (amend Entry.id entries target change).length = entries.length := by
  unfold amend
  rw [length_map]

theorem amend_ids (keeps : Keeps entries target change) : (amend Entry.id entries target change).map Entry.id = entries.map Entry.id :=
  amend_map Entry.id entries target Entry.id change keeps.id

theorem Table.touched (table : Table provider before) (keeps : Keeps before.entries target change)
    (entries : after.entries = amend Entry.id before.entries target change) (requests : after.requests = before.requests) : Table provider after := by
  constructor
  · rw [entries,amend_ids keeps,amend_length]
    exact table.numbered
  · rw [requests]
    exact table.keyed
  · intro request mem
    rw [requests] at mem
    obtain ⟨_,there,same,key,open_⟩ := table.held request mem
    obtain ⟨now,inside,sameId,sameKey,kept⟩ := kept_entry keeps there
    rw [entries]
    exact ⟨now,inside,sameId.trans same,sameKey.trans key,kept.trans open_⟩
  · intro _ mem open_
    rw [entries] at mem
    obtain ⟨old,there,same,key,-,-,kept⟩ := touched_entry keeps mem
    rw [requests,←same,←key]
    exact table.listed old there (kept.trans open_)
  rw [requests]
  exact table.bounded

theorem Table.same (table : Table provider before) (entries : after.entries = before.entries)
    (requests : after.requests = before.requests) : Table provider after := by
  obtain ⟨numbered,keyed,held,listed,bounded⟩ := table
  rw [←entries] at numbered held listed
  rw [←requests] at keyed held listed bounded
  exact ⟨numbered,keyed,held,listed,bounded⟩

theorem Stopping.touched (stopping : Stopping before) (keeps : Keeps before.entries target change)
    (entries : after.entries = amend Entry.id before.entries target change) (flag : after.stopping = before.stopping)
    (drain : after.drain = before.drain) (disposals : after.disposals = before.disposals) : Stopping after := by
  constructor
  · rw [flag,drain]
    exact stopping.begun
  · intro current running _ mem open_
    rw [entries] at mem
    rw [drain] at running
    obtain ⟨old,there,same,-,-,-,kept⟩ := touched_entry keeps mem
    rw [←same]
    exact stopping.covered current running old there (kept.trans open_)
  rw [disposals,drain]
  exact stopping.disposals

theorem Stopping.same (stopping : Stopping before) (entries : after.entries = before.entries)
    (flag : after.stopping = before.stopping) (drain : after.drain = before.drain) (disposals : after.disposals = before.disposals) : Stopping after := by
  obtain ⟨begun,covered,once⟩ := stopping
  rw [←flag,←drain] at begun
  rw [←entries,←drain] at covered
  rw [←disposals,←drain] at once
  exact ⟨begun,covered,once⟩
end

theorem requestCancel_keeps : Keeps entries target requestCancel := by
  constructor
  all_goals
    intro row _ _
    unfold requestCancel
    split
    · rfl
    split <;> rfl

theorem phase_keeps (distinct : Keyed Entry.id entries) (member : entry ∈ entries) (unfinished : isCompleted entry = false)
    (phase : Entry → Phase) (ended : Entry → Bool) (early : ∀ row result, phase row ≠ .completed result) :
    Keeps entries entry.id (fun row => { row with phase := phase row, ended := ended row }) := by
  constructor
  · intro _ _ _
    rfl
  · intro _ _ _
    rfl
  · intro _ _ _
    rfl
  intro row there same
  rw [distinct.unique there member same,unfinished]
  unfold isCompleted
  split
  · rename_i result completed
    exact absurd completed (early entry result)
  rfl

def isCall : Event → Bool
  | .fetchData .. => true
  | .cancelFetchData .. => true
  | .stop => true
  | _ => false

inductive Change (provider : Provider) (before : Dispatcher) : Event → Dispatcher → Prop where
  | registered (checked : ownedContext provider bytes context = .ok owned) (running : before.stopping = false)
      (free : find Registration.key before.requests (keyOf owned) = none)
      (room : before.requests.length < provider.maximumRequests)
      (entries : after.entries = before.entries++[⟨before.entries.length,bytes,owned,false,.absent,false,.registered⟩])
      (requests : after.requests = before.requests++[⟨keyOf owned,before.entries.length⟩])
      (stopping : after.stopping = before.stopping) (drain : after.drain = before.drain)
      (disposals : after.disposals = before.disposals)
      (answers : after.answers = before.answers++[.task bytes owned before.entries.length]) :
      Change provider before (.fetchData bytes context) after
  | shared (checked : ownedContext provider bytes context = .ok owned)
      (found : find Registration.key before.requests (keyOf owned) = some request)
      (held : find Entry.id before.entries request.entry = some entry)
      (identical : entry.identity = bytes ∧ entry.context = owned) :
      Change provider before (.fetchData bytes context) (before.answer (.task bytes owned entry.id))
  | refused : Change provider before (.fetchData bytes context) (before.answer (.refused message))
  | lost (checked : ownedContext provider bytes context = .ok owned)
      (found : find Registration.key before.requests (keyOf owned) = some request)
      (missing : find Entry.id before.entries request.entry = none) :
      Change provider before (.fetchData bytes context) before
  | unmatched (plain : answer = .notFound ∨ answer = .unsupportedRange) :
      Change provider before (.cancelFetchData key offset length) (before.answer answer)
  | asked (found : find Registration.key before.requests key = some request)
      (held : find Entry.id before.entries request.entry = some entry)
      (range : offset = entry.context.requiredOffset ∧ length = entry.context.requiredLength) :
      Change provider before (.cancelFetchData key offset length) { before with
        cancels := before.cancels++[⟨before.calls,entry.id,.requesting⟩]
        calls := before.calls+1 }
  | touched (keeps : Keeps before.entries target change) (entries : after.entries = amend Entry.id before.entries target change)
      (requests : after.requests = before.requests) (stopping : after.stopping = before.stopping)
      (drain : after.drain = before.drain) (disposals : after.disposals = before.disposals)
      (answers : after.answers = before.answers) (task : isCall event = false) :
      Change provider before event after
  | left (held : find Entry.id before.entries call.entry = some entry)
      (spent : answer = .abandoned entry.id ∨ (answer = .drained entry.id ∧ isCompleted entry = true))
      (task : isCall event = false) :
      Change provider before event (leave before call answer)
  | retired (held : find Entry.id before.entries target = some entry) (phase : entry.phase = .observed result) :
      Change provider before (.retire target) { before.amendEntry entry.id fun row => { row with phase := .completed result } with
        requests := drop Registration.key before.requests entry.key }
  | began (idle : before.drain = none) :
      Change provider before .stop { before with
        stopping := true
        drain := some (.cancelling (before.requests.map Registration.entry) [] (before.requests.map Registration.entry)) }
  | again (running : before.drain = some drain) : Change provider before .stop before
  | drained (running : before.drain = some earlier) (keeps : Keeps before.entries target change)
      (entries : after.entries = amend Entry.id before.entries target change) (requests : after.requests = before.requests)
      (stopping : after.stopping = before.stopping) (drain : after.drain = some later)
      (covered : ∀ id, covers earlier id → covers later id) (early : earlier ≠ .done) (unfinished : later ≠ .done)
      (disposals : after.disposals = before.disposals) (answers : after.answers = before.answers)
      (task : isCall event = false) : Change provider before event after
  | disposed (running : before.drain = some (.completing all)) (spent : every before all isCompleted = true) :
      Change provider before .stopCompleted { before with drain := some .done, disposals := before.disposals+1 }

theorem register_change (checked : ownedContext provider bytes context = .ok owned) :
    Change provider before (.fetchData bytes context) (register provider before bytes owned) := by
  unfold register
  split
  · exact .refused
  rename_i running
  split
  · rename_i request found
    split
    · rename_i entry held
      split
      · exact .refused
      rename_i same
      have identical : entry.identity = bytes ∧ entry.context = owned := by
        refine ⟨?_,?_⟩
        · exact Classical.byContradiction fun other => same (Or.inr other)
        exact Classical.byContradiction fun other => same (Or.inl other)
      exact .shared checked found held identical
    rename_i missing
    exact .lost checked found missing
  rename_i free
  split
  · exact .refused
  rename_i room
  exact .registered checked (by simpa using running) free (Nat.lt_of_not_le room) rfl rfl rfl rfl rfl rfl

theorem cancelFetch_change : Change provider before (.cancelFetchData key offset length) (cancelFetch provider before key offset length) := by
  unfold cancelFetch
  split
  · exact .unmatched (Or.inl rfl)
  split
  · exact .unmatched (Or.inl rfl)
  rename_i request found
  split
  · exact .unmatched (Or.inl rfl)
  rename_i entry held
  split
  · exact .unmatched (Or.inr rfl)
  rename_i same
  have range : offset = entry.context.requiredOffset ∧ length = entry.context.requiredLength := by omega
  exact .asked found held range

theorem runStep_change (table : Table provider before) (held : find Entry.id before.entries target = some entry)
    (about : subject event = some target) (ran : runStep before entry event = some after) : Change provider before event after := by
  obtain ⟨mem,same⟩ := find_some held
  unfold runStep at ran
  split at ran
  · split at ran <;> cases ran
    rename_i phase
    exact .touched (phase_keeps table.distinct mem (by simp [isCompleted,phase]) (fun _ => .hydrating) Entry.ended
      (fun _ _ => by simp)) rfl rfl rfl rfl rfl rfl rfl
  · split at ran <;> cases ran
    rename_i result _ phase
    exact .touched (phase_keeps table.distinct mem (by simp [isCompleted,phase])
      (fun row => .returned (outcome row result)) Entry.ended (fun _ _ => by simp)) rfl rfl rfl rfl rfl rfl rfl
  · split at ran <;> cases ran
    rename_i result phase
    exact .touched (phase_keeps table.distinct mem (by simp [isCompleted,phase])
      (fun _ => .ending result) (fun _ => true) (fun _ _ => by simp)) rfl rfl rfl rfl rfl rfl rfl
  · split at ran
    · split at ran <;> cases ran
      rename_i result phase _
      exact .touched (phase_keeps table.distinct mem (by simp [isCompleted,phase])
        (fun _ => .observed result) Entry.ended (fun _ _ => by simp)) rfl rfl rfl rfl rfl rfl rfl
    · cases ran
  · split at ran <;> cases ran
    rename_i result phase
    cases about
    exact .retired held phase
  · split at ran <;> cases ran
    refine .touched ?keeps rfl rfl rfl rfl rfl rfl rfl
    constructor <;> intro row _ _ <;> rfl
  cases ran

theorem stage_touched (entries : after.entries = before.entries) (requests : after.requests = before.requests)
    (stopping : after.stopping = before.stopping) (drain : after.drain = before.drain)
    (disposals : after.disposals = before.disposals) (answers : after.answers = before.answers)
    (task : isCall event = false) : Change provider before event after := by
  refine .touched (unchanged_keeps before.entries) ?_ requests stopping drain disposals answers task
  rw [entries,unchanged_amend]

theorem cancelStep_change (held : find Entry.id before.entries call.entry = some entry)
    (ran : cancelStep before call entry event = some after) : Change provider before event after := by
  unfold cancelStep at ran
  split at ran
  · split at ran <;> cases ran
    exact .touched requestCancel_keeps rfl rfl rfl rfl rfl rfl rfl
  · split at ran
    · split at ran <;> cases ran
      exact stage_touched rfl rfl rfl rfl rfl rfl rfl
    · cases ran
  · split at ran
    · split at ran <;> cases ran
      rename_i spent
      exact .left held (Or.inr ⟨rfl,spent⟩) rfl
    · cases ran
  · split at ran <;> cases ran
    exact .left held (Or.inl rfl) rfl
  cases ran

theorem drainStep_change (running : before.drain = some drain) (ran : drainStep before drain event = some after) : Change provider before event after := by
  unfold drainStep at ran
  split at ran
  · split at ran
    · cases ran
      exact .drained running requestCancel_keeps rfl rfl rfl rfl (fun _ => id) (by simp) (by simp) rfl rfl rfl
    · cases ran
      exact .drained running (unchanged_keeps before.entries) unchanged_amend.symm rfl rfl rfl (fun _ => id) (by simp) (by simp) rfl rfl rfl
    · cases ran
  · split at ran
    · split at ran <;> cases ran
      exact .drained running (unchanged_keeps before.entries) unchanged_amend.symm rfl rfl rfl (fun _ => id) (by simp) (by simp) rfl rfl rfl
    · cases ran
  · split at ran
    · split at ran <;> cases ran
      rename_i spent
      exact .disposed running spent
    · cases ran
  cases ran

theorem advance_change (table : Table provider before) (ran : Step provider before event after) : Change provider before event after := by
  unfold Step advance at ran
  split at ran
  · rename_i bytes context
    cases ran
    unfold fetchData
    split
    · exact .refused
    rename_i owned checked
    exact register_change checked
  · cases ran
    exact cancelFetch_change
  · cases ran
    split
    · rename_i idle
      exact .began idle
    rename_i drain running
    exact .again running
  split at ran
  · rename_i target about
    split at ran
    · rename_i entry held
      exact runStep_change table held about ran
    cases ran
  · split at ran
    · split at ran
      · split at ran
        · rename_i call _ entry held
          exact cancelStep_change held ran
        · cases ran
      · cases ran
    · split at ran
      · rename_i drain running
        exact drainStep_change running ran
      · cases ran

section
variable {after : Dispatcher}

theorem Table.registered (table : Table provider before) (free : find Registration.key before.requests (keyOf owned) = none)
    (room : before.requests.length < provider.maximumRequests)
    (entries : after.entries = before.entries++[⟨before.entries.length,bytes,owned,false,.absent,false,.registered⟩])
    (requests : after.requests = before.requests++[⟨keyOf owned,before.entries.length⟩]) : Table provider after := by
  constructor
  · rw [entries,map_append,table.numbered,length_append,length_singleton,range_succ]
    rfl
  · rw [requests]
    exact table.keyed.add fun row mem => find_none.mp free row mem
  · intro request mem
    rw [requests] at mem
    rw [entries]
    rcases mem_snoc.mp mem with old | rfl
    · obtain ⟨entry,there,facts⟩ := table.held request old
      exact ⟨entry,mem_append_left _ there,facts⟩
    exact ⟨_,mem_append_right _ (mem_singleton_self _),rfl,rfl,rfl⟩
  · intro entry mem open_
    rw [entries] at mem
    rw [requests]
    rcases mem_snoc.mp mem with old | rfl
    · exact mem_append_left _ (table.listed entry old open_)
    exact mem_append_right _ (mem_singleton_self _)
  rw [requests,length_append]
  exact room

theorem Table.retired (table : Table provider before) (held : find Entry.id before.entries target = some entry)
    (phase : entry.phase = .observed result) :
    Table provider { before.amendEntry entry.id fun row => { row with phase := .completed result } with
      requests := drop Registration.key before.requests entry.key } := by
  obtain ⟨member,-⟩ := find_some held
  have open_ : isCompleted entry = false := by simp [isCompleted,phase]
  have ids : (amend Entry.id before.entries entry.id fun row => { row with phase := .completed result }).map Entry.id =
      before.entries.map Entry.id := amend_map Entry.id before.entries entry.id Entry.id _ fun _ _ _ => rfl
  constructor
  · show (amend Entry.id before.entries entry.id fun row => { row with phase := .completed result }).map Entry.id =
      range (amend Entry.id before.entries entry.id fun row => { row with phase := .completed result }).length
    rw [ids,amend_length]
    exact table.numbered
  · exact table.keyed.drop
  · intro request listed
    obtain ⟨there,apart⟩ := mem_drop.mp listed
    obtain ⟨other,inside,same,key,unfinished⟩ := table.held request there
    have different : other.id ≠ entry.id := by
      intro equal
      rw [table.distinct.unique inside member equal] at key
      exact apart key.symm
    exact ⟨other,mem_amend.mpr (Or.inl ⟨inside,different⟩),same,key,unfinished⟩
  · intro other inside unfinished
    rcases mem_amend.mp inside with ⟨there,different⟩ | ⟨old,-,-,rfl⟩
    · refine mem_drop.mpr ⟨table.listed other there unfinished,?_⟩
      intro equal
      exact different (congrArg Entry.id (table.apart there member unfinished open_ equal))
    cases unfinished
  exact Nat.le_trans (length_filter_le _ _) table.bounded

theorem Change.table (table : Table provider before) (change : Change provider before event after) : Table provider after := by
  cases change with
  | registered _ _ free room entries requests => exact table.registered free room entries requests
  | touched keeps entries requests | drained _ keeps entries requests => exact table.touched keeps entries requests
  | retired held phase => exact table.retired held phase
  | lost | again => exact table
  | _ => exact table.same rfl rfl

theorem Stopping.idle (stopping : Stopping before) (running : before.stopping = false) : before.drain = none := by
  have begun := stopping.begun
  rw [running] at begun
  cases drain : before.drain with
  | none => rfl
  | some =>
    rw [drain] at begun
    cases begun

theorem every_over (spent : every before ids test) (member : entry ∈ before.entries) (inside : entry.id ∈ ids) : test entry := by
  have one := all_eq_true.mp spent entry member
  simpa [inside] using one

theorem Change.stopping (table : Table provider before) (stopping : Stopping before) (change : Change provider before event after) : Stopping after := by
  cases change with
  | registered _ running _ _ _ _ flag drain disposals =>
    have idle := stopping.idle running
    refine ⟨?_,?_,?_⟩
    · rw [flag,drain]
      exact stopping.begun
    · intro _ began
      rw [drain,idle] at began
      cases began
    rw [disposals,drain]
    exact stopping.disposals
  | touched keeps entries _ flag drain disposals => exact stopping.touched keeps entries flag drain disposals
  | retired =>
    refine ⟨stopping.begun,?_,stopping.disposals⟩
    intro drain running entry member open_
    rcases mem_amend.mp member with ⟨there,-⟩ | ⟨old,-,-,rfl⟩
    · exact stopping.covered drain running entry there open_
    cases open_
  | began idle =>
    refine ⟨rfl,?_,?_⟩
    · intro _ running entry member open_
      cases running
      exact mem_map.mpr ⟨_,table.listed entry member open_,rfl⟩
    rw [stopping.disposals,idle]
    rfl
  | drained running keeps entries _ flag drain covered early unfinished disposals =>
    refine ⟨?_,?_,?_⟩
    · rw [flag,drain,stopping.begun,running]
      rfl
    · intro _ now _ member open_
      rw [drain] at now
      cases now
      rw [entries] at member
      obtain ⟨old,there,same,-,-,-,kept⟩ := touched_entry keeps member
      rw [←same]
      exact covered old.id (stopping.covered _ running old there (kept.trans open_))
    rw [disposals,stopping.disposals,drain,running]
    simp [early,unfinished]
  | disposed running spent =>
    refine ⟨?_,?_,?_⟩
    · show before.stopping = true
      rw [stopping.begun,running]
      rfl
    · intro _ _ entry member open_
      have inside := stopping.covered _ running entry member open_
      rw [every_over spent member inside] at open_
      cases open_
    rw [stopping.disposals,running]
    rfl
  | lost | again => exact stopping
  | _ => exact stopping.same rfl rfl rfl rfl
end

def hydrates (entry : Entry) : Bool := decide (entry.phase = .hydrating)

-- A fetch while a request with its key is not over: it gets that request's own
-- task for identical data, and is refused otherwise.
def Shares (before after : Dispatcher) (bytes : Bytes) (owned : CloudFilesOperationContext) (entry : Entry) : Prop :=
  after.entries = before.entries ∧
  ((entry.identity = bytes ∧ entry.context = owned ∧ after.answers = before.answers++[.task bytes owned entry.id]) ∨
    ∃ message, after.answers = before.answers++[.refused message])

structure Lifecycle (provider : Provider) (history : List (Transition Dispatcher Event)) (dispatcher : Dispatcher) : Prop where
  exclusive : ∀ entry ∈ dispatcher.entries, ∀ other ∈ dispatcher.entries, hydrates entry = true → hydrates other = true →
    entry.key = other.key → entry = other
  bounded : (dispatcher.entries.filter hydrates).length ≤ provider.maximumRequests
  shared : ∀ taken ∈ history, ∀ bytes context owned, taken.event = .fetchData bytes context →
    ownedContext provider bytes context = .ok owned → ∀ entry ∈ taken.before.entries, isCompleted entry = false →
    entry.key = keyOf owned → Shares taken.before taken.after bytes owned entry
  reused : ∀ taken ∈ history, ∀ entry ∈ taken.after.entries, (∀ old ∈ taken.before.entries, old.id ≠ entry.id) →
    ∀ old ∈ taken.before.entries, old.key = entry.key → isCompleted old = true
  stopped : ∀ taken ∈ history, taken.event = .stop →
    dispatcher.stopping = true ∧ dispatcher.entries.map Entry.id = taken.before.entries.map Entry.id
  disposed : ∀ taken ∈ history, taken.after.disposals ≠ taken.before.disposals →
    taken.before.stopping = true ∧ taken.before.disposals = 0 ∧ ∀ entry ∈ taken.before.entries, isCompleted entry = true
  once : dispatcher.disposals ≤ 1 ∧ (dispatcher.drain = some .done ↔ dispatcher.disposals = 1)
  drained : ∀ taken ∈ history, ∀ id, taken.after.answers = taken.before.answers++[.drained id] →
    ∃ entry ∈ taken.before.entries, entry.id = id ∧ isCompleted entry = true
  matched : ∀ taken ∈ history, ∀ key offset length call, taken.event = .cancelFetchData key offset length →
    taken.after.cancels = taken.before.cancels++[call] →
    ∃ entry ∈ taken.before.entries, entry.id = call.entry ∧ entry.key = key ∧ isCompleted entry = false ∧
      offset = entry.context.requiredOffset ∧ length = entry.context.requiredLength

section
variable {after : Dispatcher}

theorem hydrates_open (running : hydrates entry) : isCompleted entry = false := by
  unfold isCompleted
  rw [of_decide_eq_true running]

theorem Table.exclusive (table : Table provider dispatcher) (left : entry ∈ dispatcher.entries)
    (right : other ∈ dispatcher.entries) (running : hydrates entry) (also_ : hydrates other) (same : entry.key = other.key) : entry = other :=
  table.apart left right (hydrates_open running) (hydrates_open also_) same

theorem Table.capacity (table : Table provider dispatcher) : (dispatcher.entries.filter hydrates).length ≤ provider.maximumRequests := by
  refine Nat.le_trans ?_ table.bounded
  have distinct : ((dispatcher.entries.filter hydrates).map fun entry => (⟨entry.key,entry.id⟩ : Registration)).Nodup := by
    have ids : ((dispatcher.entries.filter hydrates).map Entry.id).Nodup :=
      table.distinct.sublist (List.Sublist.map Entry.id filter_sublist)
    apply List.Nodup.of_map Registration.entry
    rw [map_map]
    exact ids
  have inside : ((dispatcher.entries.filter hydrates).map fun entry => (⟨entry.key,entry.id⟩ : Registration)) ⊆ dispatcher.requests := by
    intro _ mem
    obtain ⟨entry,running,rfl⟩ := mem_map.mp mem
    obtain ⟨there,hydrating⟩ := mem_filter.mp running
    exact table.listed entry there (hydrates_open hydrating)
  have count := (subperm_of_subset distinct inside).length_le
  rwa [length_map] at count

theorem Table.found (table : Table provider before) (member : entry ∈ before.entries) (open_ : isCompleted entry = false) :
    find Registration.key before.requests entry.key = some ⟨entry.key,entry.id⟩ :=
  table.keyed.find (table.listed entry member open_)

theorem Change.shares (table : Table provider before) (change : Change provider before (.fetchData bytes context) after)
    (checked : ownedContext provider bytes context = .ok owned) (member : entry ∈ before.entries)
    (open_ : isCompleted entry = false) (same : entry.key = keyOf owned) : Shares before after bytes owned entry := by
  have known := table.found member open_
  rw [same] at known
  cases change with
  | registered again _ free =>
    cases checked.symm.trans again
    rw [known] at free
    cases free
  | shared again found held identical =>
    cases checked.symm.trans again
    cases known.symm.trans found
    have here := table.distinct.find member
    cases here.symm.trans held
    exact ⟨rfl,Or.inl ⟨identical.1,identical.2,rfl⟩⟩
  | refused => exact ⟨rfl,Or.inr ⟨_,rfl⟩⟩
  | lost again found missing =>
    cases checked.symm.trans again
    cases known.symm.trans found
    exact absurd rfl (find_none.mp missing entry member)
  | touched _ _ _ _ _ _ _ task | left _ _ task | drained _ _ _ _ _ _ _ _ _ _ _ task => cases task

theorem Change.reuses (table : Table provider before) (change : Change provider before event after)
    (member : entry ∈ after.entries) (new : ∀ old ∈ before.entries, old.id ≠ entry.id) (inside : other ∈ before.entries)
    (same : other.key = entry.key) : isCompleted other := by
  have kept : ∀ {target changed}, Keeps before.entries target changed → after.entries = amend Entry.id before.entries target changed → False := by
    intro _ _ keeps entries
    rw [entries] at member
    obtain ⟨old,there,sameId,-⟩ := touched_entry keeps member
    exact new old there sameId
  cases change with
  | registered _ _ free _ entries =>
    rw [entries] at member
    rcases mem_snoc.mp member with old | rfl
    · exact absurd rfl (new entry old)
    cases spent : isCompleted other with
    | true => rfl
    | false =>
      have known := table.found inside spent
      rw [same] at known
      exact absurd (free.symm.trans known) (by simp)
  | touched keeps entries | drained _ keeps entries => exact (kept keeps entries).elim
  | retired =>
    rcases mem_amend.mp member with ⟨there,-⟩ | ⟨old,there,-,rfl⟩
    · exact absurd rfl (new entry there)
    exact absurd rfl (new old there)
  | _ => exact absurd rfl (new entry member)

theorem Change.closed (change : Change provider before event after) (stopping : before.stopping) :
    after.stopping ∧ after.entries.map Entry.id = before.entries.map Entry.id := by
  cases change with
  | registered _ running =>
    rw [stopping] at running
    cases running
  | touched keeps entries _ flag | drained _ keeps entries _ flag =>
    rw [flag,entries]
    exact ⟨stopping,amend_ids keeps⟩
  | retired => exact ⟨stopping,amend_map Entry.id before.entries _ Entry.id _ fun _ _ _ => rfl⟩
  | began => exact ⟨rfl,rfl⟩
  | _ => exact ⟨stopping,rfl⟩

theorem Change.stops (valid : Stopping before) (change : Change provider before .stop after) :
    after.stopping ∧ after.entries.map Entry.id = before.entries.map Entry.id := by
  cases change with
  | began => exact ⟨rfl,rfl⟩
  | again running =>
    refine ⟨?_,rfl⟩
    rw [valid.begun,running]
    rfl
  | touched _ _ _ _ _ _ _ task | left _ _ task | drained _ _ _ _ _ _ _ _ _ _ _ task => cases task

theorem Change.disposes (stopping : Stopping before) (change : Change provider before event after) (more : after.disposals ≠ before.disposals) :
    before.stopping ∧ before.disposals = 0 ∧ ∀ entry ∈ before.entries, isCompleted entry := by
  cases change with
  | disposed running spent =>
    refine ⟨?_,?_,?_⟩
    · rw [stopping.begun,running]
      rfl
    · rw [stopping.disposals,running]
      rfl
    intro entry member
    cases unfinished : isCompleted entry with
    | true => rfl
    | false => rw [←unfinished,every_over spent member (stopping.covered _ running entry member unfinished)]
  | registered checked running free room entries requests flag drain disposals | touched keeps entries requests flag drain disposals
  | drained _ _ _ _ _ _ _ _ _ disposals => exact absurd disposals more
  | _ => exact absurd rfl more

theorem same_answer (same : earlier++[left] = earlier++[right]) : left = right := by
  simpa using same

theorem no_answer (same : earlier = earlier++[last]) : False := by
  have := congrArg List.length same
  simp at this

theorem Change.drains (change : Change provider before event after) (answered : after.answers = before.answers++[.drained target]) :
    ∃ entry ∈ before.entries, entry.id = target ∧ isCompleted entry := by
  cases change with
  | left held spent =>
    rcases spent with rfl | ⟨rfl,completed⟩
    · cases same_answer answered
    cases same_answer answered
    exact ⟨_,(find_some held).1,rfl,completed⟩
  | registered _ _ _ _ _ _ _ _ _ answers =>
    cases same_answer (answers.symm.trans answered)
  | shared | refused => cases same_answer answered
  | unmatched plain => rcases plain with rfl | rfl <;> cases same_answer answered
  | touched _ _ _ _ _ _ answers => exact (no_answer (answers.symm.trans answered)).elim
  | drained _ _ _ _ _ _ _ _ _ _ answers =>
    exact (no_answer (answers.symm.trans answered)).elim
  | _ => exact (no_answer answered).elim

theorem Change.matches (table : Table provider before) (change : Change provider before (.cancelFetchData key offset length) after)
    (asked : after.cancels = before.cancels++[call]) : ∃ entry ∈ before.entries, entry.id = call.entry ∧ entry.key = key ∧ isCompleted entry = false ∧
      offset = entry.context.requiredOffset ∧ length = entry.context.requiredLength := by
  cases change with
  | asked found held range =>
    cases same_answer asked
    obtain ⟨mem,same⟩ := find_some held
    obtain ⟨listed,sameKey⟩ := find_some found
    obtain ⟨_,inside,id,key,open_⟩ := table.held _ listed
    have one := table.distinct.unique inside mem (id.trans same.symm)
    rw [one] at key open_
    exact ⟨_,mem,rfl,key.trans sameKey,open_,range⟩
  | unmatched => exact (no_answer asked).elim
  | touched _ _ _ _ _ _ _ task | left _ _ task | drained _ _ _ _ _ _ _ _ _ _ _ task => cases task
end

structure Valid (provider : Provider) (history : List (Transition Dispatcher Event)) (dispatcher : Dispatcher) : Prop where
  table : Table provider dispatcher
  stopping : Stopping dispatcher
  origin : ∀ taken ∈ history, Table provider taken.before ∧ Stopping taken.before ∧
    Change provider taken.before taken.event taken.after
  stopped : ∀ taken ∈ history, taken.event = .stop →
    dispatcher.stopping = true ∧ dispatcher.entries.map Entry.id = taken.before.entries.map Entry.id

theorem initial_table : Table provider .initial where
  numbered := rfl
  keyed := nodup_nil
  held _ mem := by cases mem
  listed _ mem := by cases mem
  bounded := Nat.zero_le _

theorem initial_stopping : Stopping .initial where
  begun := rfl
  covered _ running := by cases running
  disposals := rfl

theorem step_valid (valid : Valid provider history before) (ran : Recorded (Step provider) before taken after) : Valid provider (history++[taken]) after := by
  obtain ⟨rfl,rfl,moved⟩ := ran
  have change := advance_change valid.table moved
  refine ⟨change.table valid.table,change.stopping valid.table valid.stopping,?_,?_⟩
  · intro earlier mem
    rcases mem_snoc.mp mem with old | rfl
    · exact valid.origin earlier old
    exact ⟨valid.table,valid.stopping,change⟩
  intro earlier mem stop
  rcases mem_snoc.mp mem with old | rfl
  · obtain ⟨flag,ids⟩ := valid.stopped earlier old stop
    obtain ⟨still,kept⟩ := change.closed flag
    exact ⟨still,kept.trans ids⟩
  rw [stop] at change
  exact change.stops valid.stopping

theorem reached_valid (path : Runs (Recorded (Step provider)) .initial history dispatcher) : Valid provider history dispatcher := by
  refine path.preserves_history (Valid provider) (fun _ _ _ _ valid ran => step_valid valid ran) ?_
  refine ⟨initial_table,initial_stopping,?_,?_⟩
  · intro _ mem
    cases mem
  intro _ mem
  cases mem

-- The lifecycle over every interleaving. The stop closes the dispatcher; a request it found registered may still
-- reach its hydrator.
theorem dispatcher_lifecycle (provider : Provider)
    (path : Runs (Recorded (Step provider)) .initial history dispatcher) : Lifecycle provider history dispatcher := by
  have valid := reached_valid path
  constructor
  · intro _ member _ inside running also_ same
    exact valid.table.exclusive member inside running also_ same
  · exact valid.table.capacity
  · intro taken member _ _ _ event checked _ inside open_ same
    obtain ⟨table,-,change⟩ := valid.origin taken member
    rw [event] at change
    exact change.shares table checked inside open_ same
  · intro taken member _ inside new _ there same
    obtain ⟨table,-,change⟩ := valid.origin taken member
    exact change.reuses table inside new there same
  · exact valid.stopped
  · intro taken member more
    obtain ⟨-,stopping,change⟩ := valid.origin taken member
    exact change.disposes stopping more
  · rw [valid.stopping.disposals]
    split <;> simp [*]
  · intro taken member _ answered
    obtain ⟨-,-,change⟩ := valid.origin taken member
    exact change.drains answered
  intro taken member _ _ _ _ event asked
  obtain ⟨table,-,change⟩ := valid.origin taken member
  rw [event] at change
  exact change.matches table asked

def desk : Provider := ⟨"pilot","a","o","p",1,2,fun _ => .ok ⟨"pilot","a","o","p",5⟩⟩
def wholeFile : CloudFilesOperationContext := ⟨1,2,3,5,0,-1⟩

def servedAndStopped : List Event :=
  [.fetchData [1] wholeFile,.hydrate 0,.fetchData [1] wholeFile,.cancelFetchData ⟨1,2,3⟩ 0 5,.requestCancel 0,
    .hydrated 0 .cancelled,.ending 0,.cancellationRan 0,.cancelObserved 0,.stop,.stopRequest,.observed 0,.retire 0,
    .cancelReturns 0,.stopRequest,.stopObserved,.stopCompleted]

def servedAndStoppedState : Dispatcher :=
  ⟨[⟨0,[1],⟨1,2,3,5,0,5⟩,true,.finished,true,.completed .cancelled⟩],[],[],1,true,some .done,1,
    [.task [1] ⟨1,2,3,5,0,5⟩ 0,.task [1] ⟨1,2,3,5,0,5⟩ 0,.drained 0]⟩

theorem dispatcher_lifecycle_example : Lifecycle desk (tracked (advance desk) .initial servedAndStopped) servedAndStoppedState :=
  dispatcher_lifecycle desk (Runs.of_tracked (by decide +kernel))

def stoppedBetween : List Event := [.fetchData [1] wholeFile,.stop,.hydrate 0]

theorem hydration_starts_after_stop : ¬∀ history dispatcher, Runs (Recorded (Step desk)) .initial history dispatcher →
      ∀ taken ∈ history, taken.before.stopping = true → ∀ entry ∈ taken.after.entries, hydrates entry = true →
        ∃ old ∈ taken.before.entries, old.id = entry.id ∧ hydrates old = true := by
  intro never
  have ran : (follow (advance desk) .initial stoppedBetween).isSome = true := by decide +kernel
  obtain ⟨_,reached⟩ := Option.isSome_iff_exists.mp ran
  have one := never _ _ (Runs.of_tracked reached)
  revert one
  decide +kernel
end LedgeTopOps.CallbackLifecycle
