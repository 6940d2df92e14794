import Mathlib.Data.List.Basic

namespace LedgeTopOps

theorem mem_snoc {α : Type*} {x y : α} {xs : List α} : x ∈ xs++[y] ↔ x ∈ xs ∨ x = y := by
  simp only [List.mem_append,List.mem_singleton]
end LedgeTopOps

namespace LedgeTopOps.StepRuns

-- Finite runs of a labelled step relation, extended at the end.
inductive Runs {σ ε : Type*} (step : σ → ε → σ → Prop) : σ → List ε → σ → Prop where
  | nil : Runs step origin [] origin
  | step : Runs step origin earlier middle → step middle event after →
      Runs step origin (earlier++[event]) after

section
variable {σ ε : Type*} {step other : σ → ε → σ → Prop}

theorem Runs.append (left : Runs step origin earlier middle) (right : Runs step middle later after) : Runs step origin (earlier++later) after := by
  induction right with
  | nil => simpa using left
  | step _ last ih => simpa only [List.append_assoc] using Runs.step ih last

theorem Runs.single (one : step origin event after) : Runs step origin [event] after := by
  simpa using Runs.step Runs.nil one

theorem Runs.cons (first : step origin event middle) (rest : Runs step middle later after) : Runs step origin (event :: later) after := by
  simpa using (Runs.single first).append rest

theorem Runs.unmoved (path : Runs step origin [] after) : origin = after := by
  generalize empty : ([] : List ε) = events at path
  cases path with
  | nil => rfl
  | step => simp at empty

theorem Runs.split (path : Runs step origin (earlier++later) after) : ∃ middle, Runs step origin earlier middle ∧ Runs step middle later after := by
  generalize whole : earlier++later = events at path
  induction path generalizing later with
  | nil =>
    obtain ⟨rfl,rfl⟩ := List.append_eq_nil_iff.mp whole
    exact ⟨_,.nil,.nil⟩
  | @step front reached event last prior final ih =>
    rcases List.eq_nil_or_concat later with rfl | ⟨rest,back,rfl⟩
    · rw [List.append_nil] at whole
      subst whole
      exact ⟨_,.step prior final,.nil⟩
    rw [List.concat_eq_append,←List.append_assoc] at whole
    obtain ⟨same,ends⟩ := List.append_inj' whole rfl
    cases ends
    obtain ⟨middle,before,between⟩ := ih same
    exact ⟨middle,before,by rw [List.concat_eq_append]; exact .step between final⟩

theorem Runs.mono (weaken : ∀ s e t, step s e t → other s e t) (path : Runs step origin events after) : Runs other origin events after := by
  induction path with
  | nil => exact .nil
  | step _ last ih => exact .step ih (weaken _ _ _ last)

-- The induction every safety result uses: a property of the state that each
-- step preserves holds wherever a run ends.
theorem Runs.preserves (valid : σ → Prop) (kept : ∀ s e t, valid s → step s e t → valid t)
    (start : valid origin) (path : Runs step origin events after) : valid after := by
  induction path with
  | nil => exact start
  | step _ last ih => exact kept _ _ _ ih last

-- A stretch of a run from a valid state relates its two ends as each of its steps does.
theorem Runs.relates (valid : σ → Prop) (related : σ → σ → Prop) (refl : ∀ s, related s s) (trans : ∀ s t u, related s t → related t u → related s u)
    (kept : ∀ s e t, valid s → step s e t → valid t ∧ related s t) (start : valid origin) (path : Runs step origin events after) :
    valid after ∧ related origin after := by
  induction path with
  | nil => exact ⟨start,refl _⟩
  | step _ last ih =>
    obtain ⟨holds,moved⟩ := kept _ _ _ ih.1 last
    exact ⟨holds,trans _ _ _ ih.2 moved⟩

theorem Runs.preserves_history (valid : List ε → σ → Prop) (kept : ∀ history s e t, valid history s → step s e t → valid (history++[e]) t)
    (start : valid [] origin) (path : Runs step origin events after) : valid events after := by
  induction path with
  | nil => exact start
  | step _ last ih => exact kept _ _ _ _ ih last
end

theorem Runs.fold {σ ε : Type*} (advance : σ → ε → σ) (origin : σ) (events : List ε) :
    Runs (fun s e t => advance s e = t) origin events (events.foldl advance origin) := by
  induction events generalizing origin with
  | nil => exact .nil
  | cons event _ ih => exact .cons rfl (ih (advance origin event))

def follow {σ ε : Type*} (advance : σ → ε → Option σ) : σ → List ε → Option σ
  | current, [] => some current
  | current, event :: rest => match advance current event with
    | some next => follow advance next rest
    | none => none

theorem Runs.of_follow {σ ε : Type*} {advance : σ → ε → Option σ} {origin after : σ} {events : List ε}
    (ran : follow advance origin events = some after) : Runs (fun s e t => advance s e = some t) origin events after := by
  induction events generalizing origin with
  | nil =>
    cases ran
    exact .nil
  | cons event rest ih =>
    unfold follow at ran
    split at ran
    · rename_i next moved
      exact .cons moved (ih ran)
    cases ran

-- A step taken only where a condition on the state before it and on its event holds.
def Guarded {σ ε : Type*} (step : σ → ε → σ → Prop) (condition : σ → ε → Prop) (s : σ) (e : ε) (t : σ) : Prop :=
  step s e t ∧ condition s e

section
variable {σ ε : Type*} {step : σ → ε → σ → Prop} {condition : σ → ε → Prop}

theorem Runs.of_checked {advance : σ → ε → Option σ} {check : σ → ε → Bool}
    (ran : follow (fun s e => if check s e then advance s e else none) origin events = some after) :
    Runs (Guarded (fun s e t => advance s e = some t) fun s e => check s e) origin events after :=
  (Runs.of_follow ran).mono fun s e t taken => by
    obtain ⟨checked,moved⟩ := Option.ite_none_right_eq_some.mp taken
    exact ⟨moved,checked⟩

theorem Runs.unguarded (path : Runs (Guarded step condition) origin events after) : Runs step origin events after :=
  path.mono fun _ _ _ taken => taken.1

theorem Runs.nested (path : Runs (Guarded step fun s e => first s e ∧ second s e) origin events after) :
    Runs (Guarded (Guarded step first) second) origin events after :=
  path.mono fun _ _ _ taken => ⟨⟨taken.1,taken.2.1⟩,taken.2.2⟩

def Admitted (advance : σ → ε → σ) (condition : σ → ε → Prop) : σ → List ε → Prop
  | _, [] => True
  | current, event :: rest => condition current event ∧ Admitted advance condition (advance current event) rest

instance decideAdmitted (advance : σ → ε → σ) [∀ s e, Decidable (condition s e)] :
    (current : σ) → (events : List ε) → Decidable (Admitted advance condition current events)
  | _, [] => .isTrue trivial
  | current, event :: rest =>
    have := decideAdmitted advance (advance current event) rest
    inferInstanceAs (Decidable (condition current event ∧ _))

theorem Runs.admitted (advance : σ → ε → σ) (origin : σ) (events : List ε) (met : Admitted advance condition origin events) :
    Runs (Guarded (fun s e t => advance s e = t) condition) origin events (events.foldl advance origin) := by
  induction events generalizing origin with
  | nil => exact .nil
  | cons event _ ih => exact .cons ⟨rfl,met.1⟩ (ih (advance origin event) met.2)
end

-- A transition keeps the states around its event, so that a statement can speak of every step of a run.
structure Transition (σ ε : Type*) where
  before : σ
  event : ε
  after : σ

def Recorded {σ ε : Type*} (step : σ → ε → σ → Prop) (s : σ) (taken : Transition σ ε) (t : σ) : Prop :=
  taken.before = s ∧ taken.after = t ∧ step s taken.event t

section
variable {σ ε : Type*} {step : σ → ε → σ → Prop} {origin after : σ} {history : List (Transition σ ε)}

theorem Runs.events (path : Runs (Recorded step) origin history after) : Runs step origin (history.map Transition.event) after := by
  induction path with
  | nil => exact .nil
  | step _ last ih =>
    simp only [List.map_append,List.map_cons,List.map_nil]
    exact .step ih last.2.2

theorem Runs.reached (path : Runs (Recorded step) origin history after) (position : history = before++taken :: rest) :
    Runs (Recorded step) origin before taken.before ∧ step taken.before taken.event taken.after := by
  induction path generalizing rest with
  | nil => simp at position
  | @step earlier middle last after prior final ih =>
    rcases List.eq_nil_or_concat rest with empty | ⟨front,back,split⟩
    · subst empty
      obtain ⟨rfl,same⟩ := List.append_inj' position rfl
      cases List.head_eq_of_cons_eq same
      obtain ⟨rfl,rfl,ran⟩ := final
      exact ⟨prior,ran⟩
    subst split
    have same : earlier++[last] = (before++taken :: front)++[back] := by
      simpa using position
    exact ih (List.append_inj' same rfl).1

theorem Runs.resumed (path : Runs (Recorded step) origin (before++taken :: rest) after) : Runs (Recorded step) taken.after rest after := by
  rw [show before++taken :: rest = (before++[taken])++rest by simp] at path
  obtain ⟨middle,front,back⟩ := path.split
  generalize whole : before++[taken] = history at front
  cases front with
  | nil => simp at whole
  | step _ last =>
    obtain ⟨_,same⟩ := List.append_inj' whole rfl
    cases same
    rw [last.2.1]
    exact back

-- The transitions a total step function takes, and that they are a recorded run.
def trace (advance : σ → ε → σ) (current : σ) : List ε → List (Transition σ ε)
  | [] => []
  | event :: rest => ⟨current,event,advance current event⟩ :: trace advance (advance current event) rest

theorem trace_concat (advance : σ → ε → σ) (current : σ) (events : List ε) (last : ε) : trace advance current (events++[last]) = trace advance current events ++
      [⟨events.foldl advance current,last,advance (events.foldl advance current) last⟩] := by
  induction events generalizing current with
  | nil => rfl
  | cons _ _ ih => simp [trace,ih]

theorem trace_append (advance : σ → ε → σ) (current : σ) (events later : List ε) :
    trace advance current (events++later) = trace advance current events++trace advance (events.foldl advance current) later := by
  induction events generalizing current with
  | nil => rfl
  | cons _ _ ih => simp [trace,ih]

theorem Runs.recorded (advance : σ → ε → σ) (origin : σ) (events : List ε) :
    Runs (Recorded fun s e t => advance s e = t) origin (trace advance origin events) (events.foldl advance origin) := by
  induction events generalizing origin with
  | nil => exact .nil
  | cons event _ ih => exact .cons ⟨rfl,rfl,rfl⟩ (ih (advance origin event))

def tracked (advance : σ → ε → Option σ) (current : σ) : List ε → List (Transition σ ε)
  | [] => []
  | event :: rest => match advance current event with
    | some next => ⟨current,event,next⟩ :: tracked advance next rest
    | none => []

theorem Runs.of_tracked {events : List ε} (ran : follow advance origin events = some after) :
    Runs (Recorded fun s e t => advance s e = some t) origin (tracked advance origin events) after := by
  induction events generalizing origin with
  | nil =>
    cases ran
    exact .nil
  | cons event rest ih =>
    unfold follow at ran
    unfold tracked
    split at ran
    · rename_i next moved
      exact .cons ⟨rfl,rfl,moved⟩ (ih ran)
    cases ran

theorem Runs.recorded_admitted (advance : σ → ε → σ) (origin : σ) (events : List ε) (met : Admitted advance condition origin events) :
    Runs (Recorded (Guarded (fun s e t => advance s e = t) condition)) origin (trace advance origin events) (events.foldl advance origin) := by
  induction events generalizing origin with
  | nil => exact .nil
  | cons event _ ih => exact .cons ⟨rfl,rfl,rfl,met.1⟩ (ih (advance origin event) met.2)
end

-- The temporal "since": somewhere a marker was passed, and what came after it satisfies a property.
def Since {τ : Type*} (marker : τ → Prop) (remainder : List τ → Prop) (history : List τ) : Prop :=
  ∃ front mark rest, history = front++mark :: rest ∧ marker mark ∧ remainder rest

section
variable {τ : Type*} {marker : τ → Prop} {remainder : List τ → Prop} {history : List τ} {last : τ}

theorem Since.now (passed : marker last) (empty : remainder []) : Since marker remainder (history++[last]) :=
  ⟨history,last,[],rfl,passed,empty⟩

theorem Since.later (before : Since marker remainder history)
    (extend : ∀ rest, remainder rest → wider (rest++[last])) : Since marker wider (history++[last]) := by
  obtain ⟨front,mark,rest,split,passed,holds⟩ := before
  exact ⟨front,mark,rest++[last],by simp [split],passed,extend rest holds⟩

theorem Since.unbroken {broken : τ → Prop} (before : Since marker (fun rest => ∀ x ∈ rest, ¬broken x) history)
    (kept : ¬broken last) : Since marker (fun rest => ∀ x ∈ rest, ¬broken x) (history++[last]) :=
  before.later fun rest holds x mem => by
    rcases List.mem_append.mp mem with old | new
    · exact holds x old
    cases List.mem_singleton.mp new; exact kept
end

-- Entries of a history in their order of time: either the last of them is the
-- last entry, or all of them came before it.
theorem sublist_last {τ : Type*} {earlier history : List τ} {final last : τ} (inside : (earlier++[final]).Sublist (history++[last])) :
    (earlier++[final]).Sublist history ∨ (earlier.Sublist history ∧ final = last) := by
  obtain ⟨front,back,split,within,ends⟩ := List.sublist_append_iff.mp inside
  rcases List.sublist_singleton.mp ends with empty | one
  · subst empty
    exact .inl (by rw [split,List.append_nil]; exact within)
  subst one
  obtain ⟨rfl,same⟩ := List.append_inj' split rfl
  exact .inr ⟨within,List.head_eq_of_cons_eq same⟩
end LedgeTopOps.StepRuns
