import Mathlib.Data.List.Nodup

namespace LedgeTopOps.KeyedRows
open List

-- Rows that carry their own key: an ordered dictionary, a table with a primary key, a queue of identified jobs.
variable {ρ κ : Type*} [DecidableEq κ] {key : ρ → κ}

def Keyed (key : ρ → κ) (rows : List ρ) : Prop := (rows.map key).Nodup
def find (key : ρ → κ) (rows : List ρ) (k : κ) : Option ρ := rows.find? fun row => key row = k
def drop (key : ρ → κ) (rows : List ρ) (k : κ) : List ρ := rows.filter fun row => key row ≠ k
def amend (key : ρ → κ) (rows : List ρ) (k : κ) (change : ρ → ρ) : List ρ :=
  rows.map fun row => if key row = k then change row else row

theorem find_some (found : find key rows k = some row) : row ∈ rows ∧ key row = k :=
  ⟨mem_of_find?_eq_some found,by simpa using find?_some found⟩

theorem find_none : find key rows k = none ↔ ∀ row ∈ rows, key row ≠ k := by
  simp [find]

@[simp] theorem mem_drop : row ∈ drop key rows k ↔ row ∈ rows ∧ key row ≠ k := by
  simp [drop]

theorem find_append (found : find key rows k = some row) : find key (rows++others) k = some row := by
  rw [find,find?_append,←find,found]
  rfl

theorem find_snoc : find key (rows++[other]) k = (find key rows k).or (if key other = k then some other else none) := by
  rw [find,find?_append,←find,find?_cons]
  by_cases own : key other = k <;> simp [own]

theorem key_held : k ∈ rows.map key ↔ (find key rows k).isSome := by simp [find]

theorem find_amend (same : ∀ row, key (change row) = key row) :
    find key (amend key rows k change) wanted = (find key rows wanted).map fun row => if key row = k then change row else row := by
  rw [find,amend,List.find?_map]
  congr 2
  funext row
  show decide (key (if key row = k then change row else row) = wanted) = decide (key row = wanted)
  split
  · rw [same]
  rfl

omit [DecidableEq κ] in
theorem Keyed.unique (keyed : Keyed key rows) (left : row ∈ rows) (right : other ∈ rows) (same : key row = key other) : row = other :=
  inj_on_of_nodup_map keyed left right same

theorem Keyed.find (keyed : Keyed key rows) (mem : row ∈ rows) : find key rows (key row) = some row := by
  cases found : KeyedRows.find key rows (key row) with
  | none => exact absurd rfl (find_none.mp found row mem)
  | some =>
    obtain ⟨there,same⟩ := find_some found
    rw [keyed.unique there mem same]

theorem Keyed.drop (keyed : Keyed key rows) : Keyed key (drop key rows k) :=
  Nodup.sublist (Sublist.map key filter_sublist) keyed

theorem amend_map {α : Type*} (key : ρ → κ) (rows : List ρ) (k : κ) (reading : ρ → α) (change : ρ → ρ)
    (same : ∀ row ∈ rows, key row = k → reading (change row) = reading row) : (amend key rows k change).map reading = rows.map reading := by
  simp only [amend,map_map]
  refine map_congr_left fun row mem => ?_
  by_cases here : key row = k
  · simp [here,same row mem here]
  simp [here]

theorem Keyed.amend (keyed : Keyed key rows) (change : ρ → ρ)
    (same : ∀ row ∈ rows, key row = k → key (change row) = key row) : Keyed key (amend key rows k change) := by
  rw [Keyed,amend_map key rows k key change same]
  exact keyed

omit [DecidableEq κ] in
theorem Keyed.perm (keyed : Keyed key rows) (order : rows.Perm others) : Keyed key others :=
  (order.map key).nodup_iff.mp keyed

omit [DecidableEq κ] in
theorem Keyed.add (keyed : Keyed key rows) (fresh : ∀ row ∈ rows, key row ≠ key other) : Keyed key (rows++[other]) := by
  simp only [Keyed,map_append,map_cons,map_nil]
  refine nodup_append.mpr ⟨keyed,nodup_singleton _,?_⟩
  intro _ there _ here same
  obtain ⟨row,mem,rfl⟩ := mem_map.mp there
  exact fresh row mem (same.trans (mem_singleton.mp here))

theorem drop_absent (absent : ∀ row ∈ rows, key row ≠ k) : drop key rows k = rows :=
  filter_eq_self.mpr (by simpa using absent)

theorem amend_absent (change : ρ → ρ) (absent : ∀ row ∈ rows, key row ≠ k) : amend key rows k change = rows := by
  conv_rhs => rw [←map_id rows]
  exact map_congr_left fun row mem => if_neg (absent row mem)

theorem Keyed.amend_self (keyed : Keyed key rows) (found : KeyedRows.find key rows k = some row) : KeyedRows.amend key rows k (fun _ => row) = rows := by
  obtain ⟨mem,rfl⟩ := find_some found
  conv_rhs => rw [←map_id rows]
  refine map_congr_left fun other there => ?_
  split
  · rename_i same; exact keyed.unique mem there same.symm
  rfl

theorem Keyed.split (keyed : Keyed key rows) (mem : row ∈ rows) : rows.Perm (row :: KeyedRows.drop key rows (key row)) := by
  induction rows with
  | nil => cases mem
  | cons head rest ih =>
    have apart : ∀ r ∈ rest, key r ≠ key head := by
      intro r there same
      exact (nodup_cons.mp keyed).1 (same ▸ mem_map_of_mem there)
    rcases mem_cons.mp mem with rfl | deep
    · rw [show KeyedRows.drop key (row :: rest) (key row) = rest by simp [KeyedRows.drop]; exact apart]
    have tail := ih (nodup_cons.mp keyed).2 deep
    rw [show KeyedRows.drop key (head :: rest) (key row) = head :: KeyedRows.drop key rest (key row) by
      simp [KeyedRows.drop,Ne.symm (apart row deep)]]
    exact (tail.cons head).trans (.swap _ _ _)

theorem Keyed.amended (keyed : Keyed key rows) (mem : row ∈ rows) (change : ρ → ρ) :
    (KeyedRows.amend key rows (key row) change).Perm (change row :: KeyedRows.drop key rows (key row)) := by
  refine ((keyed.split mem).map _).trans ?_
  simp only [map_cons,if_true]
  refine Perm.cons _ (.of_eq ?_)
  conv_rhs => rw [←map_id (KeyedRows.drop key rows (key row))]
  exact map_congr_left fun other there => if_neg (mem_drop.mp there).2

theorem mem_amend : row ∈ amend key rows k change ↔ (row ∈ rows ∧ key row ≠ k) ∨ ∃ old ∈ rows, key old = k ∧ change old = row := by
  simp only [amend,mem_map]
  constructor
  · rintro ⟨old,mem,rfl⟩
    by_cases here : key old = k
    · exact .inr ⟨old,mem,here,by simp [here]⟩
    exact .inl (by simp [here,mem])
  rintro (⟨mem,apart⟩ | ⟨old,mem,here,rfl⟩)
  · exact ⟨row,mem,if_neg apart⟩
  · exact ⟨old,mem,if_pos here⟩

omit [DecidableEq κ] in
theorem single_of_same {rows : List ρ} (distinct : rows.Nodup) (same : ∀ left ∈ rows, ∀ right ∈ rows, left = right) : rows.length ≤ 1 := by
  cases rows with
  | nil => exact Nat.zero_le 1
  | cons first rest => cases rest with
    | nil => exact Nat.le_refl 1
    | cons second =>
      have equal := same first (by simp) second (by simp)
      exact absurd (by simp [equal]) (nodup_cons.mp distinct).1

theorem Keyed.countP_amend (keyed : Keyed key rows) (mem : row ∈ rows) (counted : ρ → Bool) (change : ρ → ρ) :
    (KeyedRows.amend key rows (key row) change).countP counted + (if counted row then 1 else 0) =
      rows.countP counted + if counted (change row) then 1 else 0 := by
  rw [(keyed.amended mem change).countP_eq counted,(keyed.split mem).countP_eq counted,countP_cons,countP_cons]
  omega

variable (amount : ρ → Int)

def total (amount : ρ → Int) : List ρ → Int
  | [] => 0
  | row :: rest => amount row + total amount rest

@[simp] theorem total_nil : total amount [] = 0 := rfl
@[simp] theorem total_cons : total amount (row :: rows) = amount row + total amount rows := rfl

@[simp] theorem total_append : total amount (rows++others) = total amount rows + total amount others := by
  induction rows with
  | nil => simp
  | cons _ _ ih => simp only [cons_append,total_cons,ih]; omega

@[simp] theorem total_zero : total (fun _ : ρ => 0) rows = 0 := by
  induction rows with
  | nil => rfl
  | cons _ _ ih => simp [ih]

theorem total_nonneg (least : ∀ row ∈ rows, 0 ≤ amount row) : 0 ≤ total amount rows := by
  induction rows with
  | nil => exact Int.le_refl 0
  | cons head _ ih =>
    have first := least head (by simp)
    have others := ih fun row mem => least row (by simp [mem])
    rw [total_cons]
    omega

theorem total_le (less : ∀ row ∈ rows, amount row ≤ other row) : total amount rows ≤ total other rows := by
  induction rows with
  | nil => exact Int.le_refl 0
  | cons head _ ih =>
    have first := less head (by simp)
    have others := ih fun row mem => less row (by simp [mem])
    rw [total_cons,total_cons]
    omega

theorem total_filterMap {σ : Type*} (reading : σ → Option ρ) (rows : List σ) :
    total amount (rows.filterMap reading) = total (fun row => ((reading row).map amount).getD 0) rows := by
  induction rows with
  | nil => rfl
  | cons head _ ih =>
    cases found : reading head with
    | none | some row => simp [found,ih]

theorem total_ge (least : ∀ row ∈ rows, 0 ≤ amount row) (mem : row ∈ rows) : amount row ≤ total amount rows := by
  obtain ⟨front,back,rfl⟩ := append_of_mem mem
  have before : 0 ≤ total amount front := total_nonneg amount fun r there => least r (by simp [there])
  have after : 0 ≤ total amount back := total_nonneg amount fun r there => least r (by simp [there])
  rw [total_append,total_cons]
  omega

theorem total_map {σ : Type*} (reading : σ → ρ) (rows : List σ) : total amount (rows.map reading) = total (fun row => amount (reading row)) rows := by
  induction rows with
  | nil => rfl
  | cons _ _ ih => simp [ih]

theorem total_congr (same : ∀ row ∈ rows, amount row = other row) : total amount rows = total other rows := by
  induction rows with
  | nil => rfl
  | cons head _ ih =>
    rw [total_cons,total_cons,same head (by simp),ih fun row mem => same row (by simp [mem])]

theorem total_perm (order : rows.Perm others) : total amount rows = total amount others := by
  induction order with
  | nil => rfl
  | cons _ _ ih => rw [total_cons,total_cons,ih]
  | swap => simp only [total_cons]; omega
  | trans _ _ left right => exact left.trans right

theorem total_amend_same (change : ρ → ρ) (same : ∀ row ∈ rows, key row = k → amount (change row) = amount row) :
    total amount (amend key rows k change) = total amount rows := by
  rw [amend,total_map]
  refine total_congr _ fun row mem => ?_
  by_cases here : key row = k
  · simp [here,same row mem here]
  simp [here]

theorem Keyed.total_drop (keyed : Keyed key rows) (mem : row ∈ rows) : total amount (KeyedRows.drop key rows (key row)) = total amount rows - amount row := by
  rw [total_perm amount (keyed.split mem),total_cons]
  omega

theorem Keyed.total_amend (keyed : Keyed key rows) (mem : row ∈ rows) (change : ρ → ρ) :
    total amount (KeyedRows.amend key rows (key row) change) = total amount rows - amount row + amount (change row) := by
  rw [total_perm amount (keyed.amended mem change),total_cons,keyed.total_drop amount mem]
  omega

theorem total_set (found : rows[index]? = some row) (other : ρ) : total amount (rows.set index other) = total amount rows - amount row + amount other := by
  induction rows generalizing index with
  | nil => cases found
  | cons _ _ ih =>
    cases index with
    | zero =>
      cases found
      simp only [set_cons_zero,total_cons]
      omega
    | succ =>
      have deeper := ih found
      simp only [set_cons_succ,total_cons]
      omega

theorem Keyed.length_drop (keyed : Keyed key rows) (mem : row ∈ rows) : (KeyedRows.drop key rows (key row)).length + 1 = rows.length := by
  simpa using (keyed.split mem).length_eq.symm

@[simp] theorem length_amend (change : ρ → ρ) : (amend key rows k change).length = rows.length := by
  simp [amend]
end LedgeTopOps.KeyedRows
