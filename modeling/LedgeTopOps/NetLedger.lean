import Mathlib.Data.List.Chain

namespace LedgeTopOps.NetLedger
open List Function

-- A ledger of net changes: objects are there or not, every report of a change enters the open group, and a group that
-- is closed is never written again.
structure Entry (κ : Type*) where
  object : κ
  (baseline current : Bool)

structure Ledger (κ : Type*) where
  closed : List (List (Entry κ))
  current : List (Entry κ)
  states : κ → Option Bool

variable {κ : Type*} [DecidableEq κ] {entries : List (Entry κ)}

def put (entries : List (Entry κ)) (object : κ) (present : Bool) : List (Entry κ) :=
  if entries.any fun entry => decide (entry.object = object) then
    entries.map fun entry => if entry.object = object then { entry with current := present } else entry
  else entries++[⟨object,!present,present⟩]

def even (entries : List (Entry κ)) : Bool := entries.all fun entry => entry.baseline == entry.current
def Ledger.empty : Ledger κ := ⟨[],[],fun _ => none⟩

def Ledger.enter (ledger : Ledger κ) (object : κ) (present : Bool) : Ledger κ :=
  ⟨ledger.closed,put ledger.current object present,update ledger.states object (some present)⟩

def Ledger.close (ledger : Ledger κ) : Ledger κ :=
  if ledger.current = [] then ledger else ⟨ledger.closed++[ledger.current],[],ledger.states⟩

def Ledger.report (ledger : Ledger κ) (object : κ) (present : Bool) : Ledger κ :=
  if ledger.states object = some present then ledger
  else
    let next := ledger.enter object present
    if even next.current then next.close else next

def of (object : κ) (entries : List (Entry κ)) : List (Entry κ) := entries.filter fun entry => decide (entry.object = object)
def Ledger.log (ledger : Ledger κ) (object : κ) : List (Entry κ) := of object (ledger.closed.flatten++ledger.current)
def Chained (entries : List (Entry κ)) : Prop := entries.IsChain fun earlier later => later.baseline = earlier.current
def worth (present : Bool) : Int := if present then 1 else 0

def net : List (Entry κ) → Int
  | [] => 0
  | entry :: rest => worth entry.current-worth entry.baseline+net rest

@[simp] theorem of_append : of object (entries++others) = of object entries++of object others := filter_append ..

omit [DecidableEq κ] in
theorem chained_concat : Chained (entries++[entry]) ↔ Chained entries ∧ ∀ last ∈ entries.getLast?, entry.baseline = last.current := by
  unfold Chained
  rw [isChain_append]
  simp

omit [DecidableEq κ] in
theorem net_chained (chained : Chained (first :: entries)) (last : (first :: entries).getLast? = some final) :
    net (first :: entries) = worth final.current-worth first.baseline := by
  induction entries generalizing first with
  | nil =>
    cases last
    simp [net]
  | cons _ _ ih =>
    have chain := isChain_cons_cons.mp chained
    have tail := ih chain.2 (by simpa using last)
    rw [net,tail,chain.1]
    omega

structure Balanced (ledger : Ledger κ) (reports : List (κ × Bool)) : Prop where
  chained : ∀ object, Chained (ledger.log object)
  states : ∀ object, ledger.states object = (ledger.log object).getLast?.map Entry.current
  first : ∀ object, (ledger.log object).head?.map Entry.baseline =
    (reports.find? fun report => decide (report.1 = object)).map fun report => !report.2
  single : ∀ object, (of object ledger.current).length ≤ 1

theorem Balanced.empty : Balanced (.empty : Ledger κ) [] where
  chained _ := isChain_nil
  states _ := rfl
  first _ := rfl
  single _ := Nat.zero_le 1

theorem Ledger.close_log (ledger : Ledger κ) (object : κ) : ledger.close.log object = ledger.log object := by
  unfold Ledger.close
  split
  · rfl
  simp [Ledger.log]

theorem Balanced.close {ledger : Ledger κ} (balanced : Balanced ledger reports) : Balanced ledger.close reports where
  chained object := by
    rw [ledger.close_log]
    exact balanced.chained object
  states object := by
    have same : ledger.close.states = ledger.states := by
      unfold Ledger.close
      split
      · rfl
      rfl
    rw [ledger.close_log,same]
    exact balanced.states object
  first object := by
    rw [ledger.close_log]
    exact balanced.first object
  single object := by
    unfold Ledger.close
    split
    · exact balanced.single object
    exact Nat.zero_le 1

omit [DecidableEq κ] in
theorem atMostOne (short : entries.length ≤ 1) : entries = [] ∨ ∃ entry, entries = [entry] := by
  cases entries with
  | nil => exact Or.inl rfl
  | cons entry rest => cases rest with
    | nil => exact Or.inr ⟨entry,rfl⟩
    | cons => exact absurd short (by simp)

theorem of_map (change : Entry κ → Entry κ) (kept : ∀ entry, (change entry).object = entry.object) :
    of object (entries.map change) = (of object entries).map change := by
  unfold of
  rw [filter_map]
  congr 1
  refine filter_congr fun entry _ => ?_
  simp [kept]

theorem of_put_other (apart : object ≠ other) : of object (put entries other present) = of object entries := by
  unfold put
  split
  · rw [of_map]
    · have same : ∀ entry ∈ of object entries,
          (if entry.object = other then { entry with current := present } else entry) = entry := by
        intro entry mem
        have here : entry.object = object := of_decide_eq_true (mem_filter.mp mem).2
        exact if_neg fun there => apart (here.symm.trans there)
      rw [map_congr_left same,map_id']
    · intro entry
      split
      · rfl
      rfl
  simp [of,apart.symm]

theorem of_put_new (absent : of object entries = []) : of object (put entries object present) = [⟨object,!present,present⟩] := by
  have none_ : ∀ entry ∈ entries, entry.object ≠ object := by
    intro entry mem here
    have inside : entry ∈ of object entries := mem_filter.mpr ⟨mem,decide_eq_true here⟩
    rw [absent] at inside
    cases inside
  unfold put
  rw [if_neg (by simpa using none_),of_append,absent]
  simp [of]

theorem of_put_old (there : of object entries = [entry]) : of object (put entries object present) = [{ entry with current := present }] := by
  have mem : entry ∈ of object entries := by
    rw [there]
    exact mem_singleton_self entry
  obtain ⟨inside,here⟩ := mem_filter.mp mem
  unfold put
  rw [if_pos (any_eq_true.mpr ⟨entry,inside,here⟩),of_map,there]
  · simp [of_decide_eq_true here]
  · intro one
    split
    · rfl
    rfl

theorem put_some : put entries object present ≠ [] := by
  unfold put
  split
  · rename_i known
    obtain ⟨_,there,-⟩ := any_eq_true.mp known
    intro none_
    rw [map_eq_nil_iff] at none_
    rw [none_] at there
    cases there
  simp

theorem Ledger.enter_other (ledger : Ledger κ) (apart : object ≠ other) : (ledger.enter other present).log object = ledger.log object := by
  unfold Ledger.log Ledger.enter
  rw [of_append,of_append,of_put_other apart]

theorem find_report_other (reports : List (κ × Bool)) (apart : object ≠ other) :
    (reports++[(other,present)]).find? (fun report => decide (report.1 = object)) = reports.find? fun report => decide (report.1 = object) := by
  simp [apart.symm]

theorem find_report_known {reports : List (κ × Bool)} (known : reports.find? (fun report => decide (report.1 = object)) ≠ none) :
    (reports++[(object,present)]).find? (fun report => decide (report.1 = object)) = reports.find? fun report => decide (report.1 = object) := by
  rw [find?_append]
  cases found : reports.find? fun report => decide (report.1 = object) with
  | none => exact absurd found known
  | some => rfl

theorem Balanced.entered {ledger : Ledger κ} (balanced : Balanced ledger reports) (changed : ledger.states object ≠ some present) :
    Chained ((ledger.enter object present).log object) ∧ ((ledger.enter object present).log object).getLast?.map Entry.current = some present ∧
    ((ledger.enter object present).log object).head?.map Entry.baseline =
      ((reports++[(object,present)]).find? fun report => decide (report.1 = object)).map fun report => !report.2 := by
  have chain := balanced.chained object
  have state := balanced.states object
  have start := balanced.first object
  unfold Ledger.log Ledger.enter at *
  rw [of_append] at *
  generalize of object ledger.closed.flatten = front at *
  rcases atMostOne (balanced.single object) with absent | ⟨entry,there⟩
  · rw [of_put_new absent]
    rw [absent,append_nil] at chain state start
    refine ⟨chained_concat.mpr ⟨chain,?_⟩,by simp,?_⟩
    · intro last final
      cases present <;> cases was : last.current <;> simp_all
    cases front with
    | nil =>
      have none_ : reports.find? (fun report => decide (report.1 = object)) = none := by
        simpa using start.symm
      rw [find?_append,none_]
      simp
    | cons =>
      have known : reports.find? (fun report => decide (report.1 = object)) ≠ none := by
        intro none_
        rw [none_] at start
        cases start
      rw [find_report_known known,←start]
      rfl
  rw [of_put_old there]
  rw [there] at chain state start
  have known : reports.find? (fun report => decide (report.1 = object)) ≠ none := by
    intro none_
    rw [none_] at start
    cases front with
    | nil | cons head rest => cases start
  have parts := chained_concat.mp chain
  refine ⟨chained_concat.mpr ⟨parts.1,parts.2⟩,by simp,?_⟩
  rw [find_report_known known,←start]
  cases front with
  | nil | cons head rest => rfl

theorem Balanced.enter {ledger : Ledger κ} (balanced : Balanced ledger reports) (changed : ledger.states object ≠ some present) :
    Balanced (ledger.enter object present) (reports++[(object,present)]) := by
  obtain ⟨chain,state,start⟩ := balanced.entered changed
  refine ⟨?_,?_,?_,?_⟩
  · intro one
    by_cases same : one = object
    · rw [same]
      exact chain
    rw [ledger.enter_other same]
    exact balanced.chained one
  · intro one
    by_cases same : one = object
    · rw [same,state]
      exact update_self ..
    rw [ledger.enter_other same,←balanced.states one]
    exact update_of_ne same ..
  · intro one
    by_cases same : one = object
    · rw [same]
      exact start
    rw [ledger.enter_other same,find_report_other reports same]
    exact balanced.first one
  intro one
  show (of one (put ledger.current object present)).length ≤ 1
  by_cases same : one = object
  · subst same
    rcases atMostOne (balanced.single one) with absent | ⟨entry,there⟩
    · rw [of_put_new absent]
      exact Nat.le_refl 1
    rw [of_put_old there]
    exact Nat.le_refl 1
  rw [of_put_other same]
  exact balanced.single one

theorem Ledger.report_known (ledger : Ledger κ) (known : ledger.states object = some present) :
    ledger.report object present = ledger := if_pos known

theorem Ledger.report_uneven (ledger : Ledger κ) (changed : ledger.states object ≠ some present)
    (uneven : even (ledger.enter object present).current = false) : ledger.report object present = ledger.enter object present := by
  unfold Ledger.report
  dsimp only
  rw [if_neg changed,uneven,if_neg Bool.false_ne_true]

theorem Ledger.report_even (ledger : Ledger κ) (changed : ledger.states object ≠ some present) (same : even (ledger.enter object present).current) :
    ledger.report object present = (ledger.enter object present).close := by
  unfold Ledger.report
  dsimp only
  rw [if_neg changed,same,if_pos rfl]

theorem Balanced.report {ledger : Ledger κ} (balanced : Balanced ledger reports) (object : κ) (present : Bool) :
    Balanced (ledger.report object present) (reports++[(object,present)]) := by
  unfold Ledger.report
  split
  · rename_i same
    refine ⟨balanced.chained,balanced.states,?_,balanced.single⟩
    intro one
    by_cases here : one = object
    · subst here
      have known : reports.find? (fun report => decide (report.1 = one)) ≠ none := by
        intro none_
        have start := balanced.first one
        have state := balanced.states one
        rw [none_] at start
        rw [same] at state
        cases log : ledger.log one with
        | nil =>
          rw [log] at state
          cases state
        | cons =>
          rw [log] at start
          cases start
      rw [find_report_known known]
      exact balanced.first one
    rw [find_report_other reports here]
    exact balanced.first one
  rename_i changed
  have entered := balanced.enter changed
  dsimp only
  split
  · exact entered.close
  exact entered

theorem Balanced.nets {ledger : Ledger κ} (balanced : Balanced ledger reports)
    (first : reports.find? (fun report => decide (report.1 = object)) = some (object,present)) :
    ∃ state, ledger.states object = some state ∧ net (ledger.log object) = worth state-worth (!present) := by
  have start := balanced.first object
  rw [first] at start
  have state := balanced.states object
  cases log : ledger.log object with
  | nil =>
    rw [log] at start
    cases start
  | cons head rest =>
    have chain := balanced.chained object
    rw [log] at chain start state
    obtain ⟨final,last⟩ : ∃ final, (head :: rest).getLast? = some final :=
      ⟨_,List.getLast?_eq_some_getLast (cons_ne_nil head rest)⟩
    rw [last] at state
    refine ⟨final.current,state,?_⟩
    rw [net_chained chain last,show head.baseline = !present from Option.some.inj start]

theorem Balanced.current {ledger : Ledger κ} (balanced : Balanced ledger reports) (mem : entry ∈ ledger.current) :
    ledger.states entry.object = some entry.current := by
  have inside : entry ∈ of entry.object ledger.current := mem_filter.mpr ⟨mem,decide_eq_true rfl⟩
  rcases atMostOne (balanced.single entry.object) with absent | ⟨one,there⟩
  · rw [absent] at inside
    cases inside
  have same : entry = one := by
    rw [there] at inside
    exact mem_singleton.mp inside
  have state := balanced.states entry.object
  unfold Ledger.log at state
  rw [of_append,there,←same] at state
  simpa using state
end LedgeTopOps.NetLedger
