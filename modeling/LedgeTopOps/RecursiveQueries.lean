import Mathlib.Data.List.Dedup
import Mathlib.Data.List.Perm.Basic
import Mathlib.Data.List.Range

namespace LedgeTopOps.RecursiveQueries
open List

-- Recursive queries that walk a relation level by level, with the level in the row: α is a row without its level, and
-- `step` what the recursive part joins to it.
variable {α β : Type*}

section
variable [DecidableEq α] {step : α → List α}

def level (step : α → List α) (base : List α) : Nat → List α
  | 0 => base.dedup
  | depth+1 => ((level step base depth).flatMap step).dedup

def unionRows (step : α → List α) (base : List α) (bound : Nat) : List (α × Nat) :=
  (range (bound+1)).flatMap fun depth => (level step base depth).map fun row => (row,depth)

theorem level_nodup : (level step base depth).Nodup := by
  cases depth with
  | zero | succ depth => exact nodup_dedup _

theorem mem_level_zero : row ∈ level step base 0 ↔ row ∈ base := mem_dedup

theorem mem_level_succ : row ∈ level step base (depth+1) ↔ ∃ last ∈ level step base depth, row ∈ step last := by
  show row ∈ ((level step base depth).flatMap step).dedup ↔ _
  rw [mem_dedup,mem_flatMap]

theorem mem_unionRows {entry : α × Nat} : entry ∈ unionRows step base bound ↔ entry.2 ≤ bound ∧ entry.1 ∈ level step base entry.2 := by
  unfold unionRows
  rw [mem_flatMap]
  constructor
  · intro found
    obtain ⟨_,within,mem⟩ := found
    obtain ⟨_,there,rfl⟩ := mem_map.mp mem
    exact ⟨Nat.le_of_lt_succ (mem_range.mp within),there⟩
  intro found
  exact ⟨entry.2,mem_range.mpr (Nat.lt_succ_of_le found.1),mem_map.mpr ⟨entry.1,found.2,rfl⟩⟩

theorem unionRows_nodup : (unionRows step base bound).Nodup := by
  refine nodup_flatMap.mpr ⟨?_,?_⟩
  · intro _ _
    exact level_nodup.map fun left right same => (Prod.mk.inj same).1
  refine nodup_range.imp ?_
  intro _ _ different _ one other
  obtain ⟨_,-,rfl⟩ := mem_map.mp one
  obtain ⟨_,-,same⟩ := mem_map.mp other
  exact different (Prod.mk.inj same).2.symm

theorem unionRows_nil : unionRows step [] bound = [] := by
  have none_ : ∀ depth row, row ∉ level step [] depth := by
    intro depth
    induction depth with
    | zero => exact fun row mem => nomatch mem_level_zero.mp mem
    | succ _ ih =>
      intro _ mem
      obtain ⟨last,before,-⟩ := mem_level_succ.mp mem
      exact ih last before
  exact eq_nil_iff_forall_not_mem.mpr fun entry mem => none_ _ _ (mem_unionRows.mp mem).2

theorem mem_level_map {γ : Type*} [DecidableEq γ] {reading : α → γ} {other : γ → List γ} {start : List γ} {value : γ}
    (bases : ∀ value, value ∈ start ↔ ∃ row ∈ base, reading row = value)
    (steps : ∀ row value, value ∈ other (reading row) ↔ ∃ next ∈ step row, reading next = value) :
    value ∈ level other start depth ↔ ∃ row ∈ level step base depth, reading row = value := by
  induction depth generalizing value with
  | zero =>
    rw [mem_level_zero,bases]
    simp only [mem_level_zero]
  | succ _ ih =>
    rw [mem_level_succ]
    constructor
    · intro found
      obtain ⟨_,mem,next⟩ := found
      obtain ⟨row,there,rfl⟩ := ih.mp mem
      obtain ⟨after,listed,same⟩ := (steps row value).mp next
      exact ⟨after,mem_level_succ.mpr ⟨row,there,listed⟩,same⟩
    intro found
    obtain ⟨after,mem,same⟩ := found
    obtain ⟨row,there,listed⟩ := mem_level_succ.mp mem
    exact ⟨reading row,ih.mpr ⟨row,there,rfl⟩,(steps row value).mpr ⟨after,listed,same⟩⟩

theorem unionRows_map {γ : Type*} [DecidableEq γ] {reading : α → γ} {other : γ → List γ} {start : List γ}
    (bases : ∀ value, value ∈ start ↔ ∃ row ∈ base, reading row = value)
    (steps : ∀ row value, value ∈ other (reading row) ↔ ∃ next ∈ step row, reading next = value)
    (apart : ∀ depth, ∀ left ∈ level step base depth, ∀ right ∈ level step base depth, reading left = reading right → left = right) :
    ((unionRows step base bound).map fun entry => (reading entry.1,entry.2)).Perm (unionRows other start bound) := by
  have distinct : ((unionRows step base bound).map fun entry => (reading entry.1,entry.2)).Nodup := by
    refine Nodup.map_on ?_ unionRows_nodup
    intro left one right two same
    obtain ⟨row,depth⟩ := left
    obtain ⟨last,_⟩ := right
    injection same with first second
    cases second
    have equal : row = last := apart depth row (mem_unionRows.mp one).2 last (mem_unionRows.mp two).2 first
    rw [equal]
  refine (perm_ext_iff_of_nodup distinct unionRows_nodup).mpr fun entry => ?_
  obtain ⟨_,depth⟩ := entry
  rw [mem_unionRows,mem_level_map bases steps,mem_map]
  constructor
  · intro found
    obtain ⟨⟨row,_⟩,mem,same⟩ := found
    cases same
    obtain ⟨within,there⟩ := mem_unionRows.mp mem
    exact ⟨within,row,there,rfl⟩
  intro found
  obtain ⟨within,row,there,rfl⟩ := found
  exact ⟨(row,depth),mem_unionRows.mpr ⟨within,there⟩,rfl⟩
end

-- One query for many targets: every row carries the target it was reached from.
section
variable [DecidableEq α] [DecidableEq β] {base : β → List α}

def tagged (step : α → List α) (entry : β × α) : List (β × α) := (step entry.2).map fun row => (entry.1,row)
def bases (base : β → List α) (targets : List β) : List (β × α) := targets.flatMap fun target => (base target).map fun row => (target,row)

theorem mem_level_tagged {row : α} : (target,row) ∈ level (tagged step) (bases base targets) depth ↔
    target ∈ targets ∧ row ∈ level step (base target) depth := by
  induction depth generalizing row with
  | zero =>
    rw [mem_level_zero,mem_level_zero]
    unfold bases
    simp
  | succ _ ih =>
    rw [mem_level_succ,mem_level_succ]
    constructor
    · intro found
      obtain ⟨⟨_,last⟩,mem,next⟩ := found
      obtain ⟨_,there,same⟩ := mem_map.mp next
      cases same
      obtain ⟨listed,reached⟩ := ih.mp mem
      exact ⟨listed,last,reached,there⟩
    intro found
    obtain ⟨listed,last,mem,next⟩ := found
    exact ⟨(target,last),ih.mpr ⟨listed,mem⟩,mem_map.mpr ⟨row,next,rfl⟩⟩

def ofTarget (rows : List ((β × α) × Nat)) (target : β) : List (α × Nat) :=
  (rows.filter fun entry => decide (entry.1.1 = target)).map fun entry => (entry.1.2,entry.2)

theorem ofTarget_perm (listed : target ∈ targets) :
    (ofTarget (unionRows (tagged step) (bases base targets) bound) target).Perm (unionRows step (base target) bound) := by
  have apart : (ofTarget (unionRows (tagged step) (bases base targets) bound) target).Nodup := by
    refine Nodup.map_on ?_ (unionRows_nodup.filter _)
    intro left one right other same
    have first := of_decide_eq_true (mem_filter.mp one).2
    have second := of_decide_eq_true (mem_filter.mp other).2
    obtain ⟨⟨_,_⟩,_⟩ := left
    obtain ⟨⟨_,_⟩,_⟩ := right
    cases same
    cases first
    cases second
    rfl
  refine (perm_ext_iff_of_nodup apart unionRows_nodup).mpr fun entry => ?_
  obtain ⟨row,depth⟩ := entry
  rw [mem_unionRows]
  constructor
  · intro mem
    obtain ⟨⟨⟨_,_⟩,_⟩,found,same⟩ := mem_map.mp mem
    obtain ⟨there,own⟩ := mem_filter.mp found
    cases same
    cases of_decide_eq_true own
    obtain ⟨within,reached⟩ := mem_unionRows.mp there
    exact ⟨within,(mem_level_tagged.mp reached).2⟩
  intro found
  refine mem_map.mpr ⟨((target,row),depth),mem_filter.mpr ⟨?_,decide_eq_true rfl⟩,rfl⟩
  exact mem_unionRows.mpr ⟨found.1,mem_level_tagged.mpr ⟨listed,found.2⟩⟩
end

def bag (step : α → List α) (base : List α) : Nat → List α
  | 0 => base
  | depth+1 => (bag step base depth).flatMap step

def bagRows (step : α → List α) (base : List α) (bound : Nat) : List (α × Nat) :=
  (range (bound+1)).flatMap fun depth => (bag step base depth).map fun row => (row,depth)

theorem mem_bagRows {entry : α × Nat} : entry ∈ bagRows step base bound ↔ entry.2 ≤ bound ∧ entry.1 ∈ bag step base entry.2 := by
  unfold bagRows
  rw [mem_flatMap]
  constructor
  · intro found
    obtain ⟨_,within,mem⟩ := found
    obtain ⟨_,there,rfl⟩ := mem_map.mp mem
    exact ⟨Nat.le_of_lt_succ (mem_range.mp within),there⟩
  intro found
  exact ⟨entry.2,mem_range.mpr (Nat.lt_succ_of_le found.1),mem_map.mpr ⟨entry.1,found.2,rfl⟩⟩

theorem level_bag [DecidableEq α] {other : α → List α} (single : base.length ≤ 1)
    (steps : ∀ place < depth, ∀ row ∈ bag step base place, (step row).length ≤ 1 ∧ other row = step row) :
    level other base depth = bag step base depth ∧ (bag step base depth).length ≤ 1 := by
  have short : ∀ rows : List α, rows.length ≤ 1 → rows.dedup = rows := by
    intro rows few
    match rows, few with
    | [], _ => rfl
    | [_], _ => rfl
  induction depth with
  | zero => exact ⟨short base single,single⟩
  | succ depth ih =>
    obtain ⟨same,few⟩ := ih fun place within => steps place (Nat.lt_succ_of_lt within)
    have next := steps depth (Nat.lt_succ_self depth)
    show ((level other base depth).flatMap other).dedup = (bag step base depth).flatMap step ∧ ((bag step base depth).flatMap step).length ≤ 1
    rw [same]
    match rows : bag step base depth, few with
    | [], _ => exact ⟨rfl,Nat.zero_le 1⟩
    | [row], _ =>
      obtain ⟨bound,equal⟩ := next row (by rw [rows]; exact mem_singleton_self row)
      rw [flatMap_singleton,flatMap_singleton,equal]
      exact ⟨short _ bound,bound⟩
end LedgeTopOps.RecursiveQueries
