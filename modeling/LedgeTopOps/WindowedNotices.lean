import LedgeTopOps.NetLedger
import LedgeTopOps.StepRuns

namespace LedgeTopOps.WindowedNotices
open List NetLedger StepRuns
open Function (update_of_ne update_self update)

-- Notices of net changes. Reports enter the open window, and when it is closed an object that ends it differently
-- from its baseline is announced.
structure Notices (κ : Type*) where
  told : κ → List Bool
  window : List (Entry κ)
  recorded : κ → Option Bool
  repeats : κ → Bool

variable {κ : Type*} [DecidableEq κ] {n : Notices κ}

def notice (entry : Entry κ) : Option Bool := if entry.current = entry.baseline then none else some entry.current

def Notices.enter (n : Notices κ) (object : κ) (present : Bool) : Notices κ where
  told := n.told
  window := put n.window object present
  recorded := update n.recorded object (some present)
  repeats := if of object n.window = [] then update n.repeats object (decide (n.recorded object = some present))
    else n.repeats

def Notices.close (n : Notices κ) : Notices κ :=
  { n with told := fun object => n.told object++(of object n.window).filterMap notice, window := [] }

def Notices.report (n : Notices κ) (object : κ) (present : Bool) : Notices κ :=
  if even (n.enter object present).window then (n.enter object present).close else n.enter object present

inductive Move (κ : Type*) where
  | report (object : κ) (present : Bool)
  | close

def Notices.advance (n : Notices κ) : Move κ → Notices κ
  | .report object present => n.report object present
  | .close => n.close

-- Who was ever told that an object is there was last told what is recorded.
def Faithful (n : Notices κ) : Prop :=
  ∀ object, true ∈ n.told object → of object n.window = [] →
    ((n.told object).getLast? = some true ↔ n.recorded object = some true)

-- No object that was announced, and whose first report in the window repeated what
-- was recorded, is back at its baseline.
def Quiet (n : Notices κ) : Prop :=
  ∀ entry ∈ n.window, n.repeats entry.object = true → true ∈ n.told entry.object → entry.current ≠ entry.baseline

def Admits (n : Notices κ) : Move κ → Prop
  | .report object present => even (n.enter object present).window = true → Quiet (n.enter object present)
  | .close => Quiet n

structure Telescopes (n : Notices κ) : Prop where
  single : ∀ object, (of object n.window).length ≤ 1
  current : ∀ entry ∈ n.window, n.recorded entry.object = some entry.current
  known : ∀ object, n.told object ≠ [] → (n.recorded object).isSome = true
  settled : ∀ object, true ∈ n.told object → of object n.window = [] → (n.told object).getLast? = n.recorded object
  based : ∀ entry ∈ n.window, true ∈ n.told entry.object →
    (n.told entry.object).getLast? = some (if n.repeats entry.object then !entry.baseline else entry.baseline)

omit [DecidableEq κ] in
theorem same_truth (some_ : told ≠ []) (known : recorded.isSome) : told.getLast? = recorded ↔ (told.getLast? = some true ↔ recorded = some true) := by
  obtain ⟨row,held⟩ := Option.isSome_iff_exists.mp known
  rw [List.getLast?_eq_some_getLast some_,held]
  generalize told.getLast some_ = last
  cases last
  · cases row <;> simp
  · cases row <;> simp

theorem close_even (nothing : even n.window) : n.close = { n with window := [] } := by
  have same : n.close.told = n.told := by
    funext object
    show n.told object++(of object n.window).filterMap notice = _
    rw [filterMap_eq_nil_iff.mpr,append_nil]
    intro entry mem
    have back := all_eq_true.mp nothing entry (mem_filter.mp mem).1
    exact if_pos (beq_iff_eq.mp back).symm
  unfold Notices.close at same ⊢
  rw [show (fun object => n.told object++(of object n.window).filterMap notice) = n.told from same]

theorem Telescopes.faithful (telescopes : Telescopes n) : Faithful n := by
  intro object told closed
  rw [telescopes.settled object told closed]

theorem mem_of : entry ∈ of object n.window ↔ entry ∈ n.window ∧ entry.object = object := by
  unfold of
  rw [mem_filter,decide_eq_true_eq]

theorem Telescopes.alone (telescopes : Telescopes n) (mem : entry ∈ n.window) : of entry.object n.window = [entry] := by
  have inside : entry ∈ of entry.object n.window := mem_of.mpr ⟨mem,rfl⟩
  rcases atMostOne (telescopes.single entry.object) with none_ | ⟨only,one⟩
  · rw [none_] at inside
    cases inside
  rw [one] at inside ⊢
  rw [mem_singleton.mp inside]

theorem told_close (telescopes : Telescopes n) (mem : entry ∈ n.window) : n.close.told entry.object = n.told entry.object++(notice entry).toList := by
  show n.told entry.object++(of entry.object n.window).filterMap notice = _
  rw [telescopes.alone mem]
  cases given : notice entry with
  | none | some present => simp [given]

theorem told_close_other (absent : of object n.window = []) : n.close.told object = n.told object := by
  show n.told object++(of object n.window).filterMap notice = _
  rw [absent]
  simp

theorem of_cases (object : κ) (n : Notices κ) : of object n.window = [] ∨ ∃ entry ∈ n.window, entry.object = object := by
  cases there : of object n.window with
  | nil => exact .inl rfl
  | cons entry =>
    have mem : entry ∈ of object n.window := by
      rw [there]
      exact mem_cons_self
    obtain ⟨inside,same⟩ := mem_of.mp mem
    exact .inr ⟨entry,inside,same⟩

theorem Telescopes.entry_settles (telescopes : Telescopes n) (mem : entry ∈ n.window)
    (told : true ∈ n.close.told entry.object) : (n.close.told entry.object).getLast? = n.recorded entry.object ↔
      (n.repeats entry.object → true ∈ n.told entry.object → entry.current ≠ entry.baseline) := by
  rw [told_close telescopes mem] at told ⊢
  rw [telescopes.current entry mem]
  unfold notice at told ⊢
  split
  · rename_i back
    rw [if_pos back] at told
    have old : true ∈ n.told entry.object := by simpa using told
    simp only [Option.toList_none,append_nil]
    rw [telescopes.based entry mem old,Option.some.injEq]
    cases n.repeats entry.object
    · simp [back]
    · simp [back,old]
  rename_i moved
  simp [moved]

theorem Telescopes.close (telescopes : Telescopes n) (quiet : Quiet n) : Telescopes n.close where
  single _ := Nat.zero_le 1
  current _ mem := nomatch mem
  known object some_ := by
    rcases of_cases object n with absent | ⟨entry,mem,rfl⟩
    · rw [told_close_other absent] at some_
      exact telescopes.known object some_
    show (n.recorded entry.object).isSome = true
    rw [telescopes.current entry mem]
    rfl
  settled object told _ := by
    rcases of_cases object n with absent | ⟨entry,mem,rfl⟩
    · rw [told_close_other absent] at told ⊢
      exact telescopes.settled object told absent
    exact (telescopes.entry_settles mem told).mpr (quiet entry mem)
  based _ mem := nomatch mem

theorem Telescopes.quiet (telescopes : Telescopes n) (faithful : ∀ entry ∈ n.window, true ∈ n.told entry.object →
      ((n.close.told entry.object).getLast? = some true ↔ n.recorded entry.object = some true)) : Quiet n := by
  intro entry mem repeats told
  have later : true ∈ n.close.told entry.object := by
    exact mem_append_left _ told
  have known : (n.recorded entry.object).isSome := by
    rw [telescopes.current entry mem]
    rfl
  have same := (same_truth (ne_nil_of_mem later) known).mpr (faithful entry mem told)
  exact (telescopes.entry_settles mem later).mp same repeats told

theorem of_enter_other (apart : object ≠ other) : of object (n.enter other present).window = of object n.window := of_put_other apart

theorem repeats_new (absent : of object n.window = []) :
    (n.enter object present).repeats = update n.repeats object (decide (n.recorded object = some present)) := if_pos absent

theorem repeats_old (there : of object n.window ≠ []) : (n.enter object present).repeats = n.repeats := if_neg there

theorem repeats_other (different : other ≠ object) : (n.enter object present).repeats other = n.repeats other := by
  by_cases absent : of object n.window = []
  · rw [repeats_new absent,update_of_ne different]
  rw [repeats_old absent]

section
variable (telescopes : Telescopes n)
include telescopes

theorem Telescopes.enter (object : κ) (present : Bool) : Telescopes (n.enter object present) := by
  have own : ∃ entry, of object (n.enter object present).window = [entry] ∧ entry.current = present ∧
      ((of object n.window = [] ∧ entry.baseline = !present) ∨ ∃ old, of object n.window = [old] ∧ entry.baseline = old.baseline) := by
    rcases atMostOne (telescopes.single object) with absent | ⟨old,there⟩
    · exact ⟨_,of_put_new absent,rfl,.inl ⟨absent,rfl⟩⟩
    exact ⟨_,of_put_old there,rfl,.inr ⟨old,there,rfl⟩⟩
  obtain ⟨entry,only,current,base⟩ := own
  have unique : ∀ one ∈ (n.enter object present).window, one.object = object → one = entry := by
    intro one mem same
    have inside : one ∈ of object (n.enter object present).window := mem_of.mpr ⟨mem,same⟩
    rw [only] at inside
    exact mem_singleton.mp inside
  have stays : ∀ one ∈ (n.enter object present).window, one.object ≠ object → one ∈ n.window := by
    intro one mem different
    have inside : one ∈ of one.object (n.enter object present).window := mem_of.mpr ⟨mem,rfl⟩
    rw [of_enter_other different] at inside
    exact (mem_of.mp inside).1
  have other : ∀ {key : κ}, key ≠ object → (n.enter object present).recorded key = n.recorded key :=
    fun different => update_of_ne different ..
  refine ⟨?_,?_,?_,?_,?_⟩
  · intro key
    by_cases same : key = object
    · rw [same,only]
      exact Nat.le_refl 1
    rw [of_enter_other same]
    exact telescopes.single key
  · intro one mem
    by_cases same : one.object = object
    · rw [same,unique one mem same,current]
      exact update_self ..
    rw [other same]
    exact telescopes.current one (stays one mem same)
  · intro key told
    by_cases same : key = object
    · rw [same]
      show (update n.recorded object (some present) object).isSome = true
      rw [update_self]
      rfl
    rw [other same]
    exact telescopes.known key told
  · intro key told absent
    by_cases same : key = object
    · rw [same,only] at absent
      cases absent
    rw [of_enter_other same] at absent
    rw [other same]
    exact telescopes.settled key told absent
  intro one mem told
  by_cases same : one.object = object
  · cases unique one mem same
    rw [same] at told ⊢
    show (n.told object).getLast? = _
    rcases base with ⟨absent,base⟩ | ⟨old,there,base⟩
    · rw [repeats_new absent,update_self,telescopes.settled object told absent,base]
      obtain ⟨row,held⟩ := Option.isSome_iff_exists.mp (telescopes.known object (ne_nil_of_mem told))
      rw [held]
      cases row <;> cases present <;> rfl
    have inside : old ∈ of object n.window := by
      rw [there]
      exact mem_singleton_self old
    obtain ⟨stored,named⟩ := mem_of.mp inside
    rw [repeats_old (ne_nil_of_mem inside),base,←named]
    rw [←named] at told
    exact telescopes.based old stored told
  rw [repeats_other same]
  exact telescopes.based one (stays one mem same) told

theorem Telescopes.advance (move : Move κ) (admits : Admits n move) : Telescopes (n.advance move) := by
  cases move with
  | report object present =>
    have entered := telescopes.enter object present
    show Telescopes (if even (n.enter object present).window then _ else _)
    split
    · rename_i closes
      exact entered.close (admits closes)
    exact entered
  | close => exact telescopes.close admits

theorem Telescopes.admitted (admitted : Admitted Notices.advance Admits n moves) : Telescopes (moves.foldl Notices.advance n) := by
  induction moves generalizing n with
  | nil => exact telescopes
  | cons move _ ih => exact ih (telescopes.advance move admitted.1) admitted.2

theorem Telescopes.closed_quiet (faithful : Faithful n.close) : Quiet n := by
  apply telescopes.quiet
  intro entry mem told
  apply faithful entry.object
  · rw [told_close telescopes mem]
    exact mem_append_left _ told
  · rfl

theorem Telescopes.admits (move : Move κ) (faithful : Faithful (n.advance move)) : Admits n move := by
  cases move with
  | report object present =>
    intro closes
    have shape : n.advance (.report object present) = (n.enter object present).close := if_pos closes
    rw [shape] at faithful
    exact (telescopes.enter object present).closed_quiet faithful
  | close => exact telescopes.closed_quiet faithful
end

theorem close_report (n : Notices κ) (object : κ) (present : Bool) :
    even (n.close.enter object present).window = false ∧ n.close.report object present = n.close.enter object present := by
  have only : (n.close.enter object present).window = [⟨object,!present,present⟩] := rfl
  have uneven : even (n.close.enter object present).window = false := by
    cases present <;> rfl
  refine ⟨uneven,?_⟩
  unfold Notices.report
  rw [uneven]
  rfl

theorem Telescopes.makes_room (telescopes : Telescopes n) (absent : of object n.window = []) : Faithful (n.close.report object present) → Quiet n := by
  intro faithful
  rw [(close_report n object present).2] at faithful
  apply telescopes.quiet
  intro entry mem told
  have different : entry.object ≠ object := by
    intro same
    have inside : entry ∈ of object n.window := mem_of.mpr ⟨mem,same⟩
    rw [absent] at inside
    cases inside
  have shown := faithful entry.object (by
    show true ∈ n.close.told entry.object
    exact mem_append_left _ told)
  rw [of_enter_other different] at shown
  have apart : (n.close.enter object present).recorded entry.object = n.recorded entry.object :=
    update_of_ne different ..
  rw [apart] at shown
  exact shown rfl
end LedgeTopOps.WindowedNotices
