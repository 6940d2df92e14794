import Mathlib.Data.List.Nodup
import Mathlib.Data.List.Range
import Mathlib.Data.List.Perm.Subperm

namespace LedgeTopOps.FreshNames

-- Looking for the first of a row of numbered candidates whose key is free.
variable {α κ : Type*} [DecidableEq κ] {key : α → κ} {used : List κ} {numbered : Nat → α} {fuel copy : Nat}
  {candidate result : α}

def search (key : α → κ) (used : List κ) (numbered : Nat → α) : Nat → Nat → α → Option α
  | 0,_,_ => none
  | fuel+1,copy,candidate =>
    if key candidate ∈ used then search key used numbered fuel (copy+1) (numbered copy) else some candidate

def Distinct (key : α → κ) (numbered : Nat → α) : Prop :=
  ∀ first second, key (numbered first) = key (numbered second) → first = second

theorem search_unused (free : key candidate ∉ used) : search key used numbered (fuel+1) copy candidate = some candidate := by
  rw [search,if_neg free]

section
variable (found : search key used numbered fuel copy candidate = some result)
include found

theorem search_free : key result ∉ used := by
  induction fuel generalizing copy candidate with
  | zero => cases found
  | succ fuel ih =>
    unfold search at found
    split at found
    · exact ih found
    rename_i free
    cases found
    exact free

theorem search_among : result = candidate ∨ ∃ number, number < copy + fuel ∧ result = numbered number := by
  induction fuel generalizing copy candidate with
  | zero => cases found
  | succ _ ih =>
    unfold search at found
    split at found
    · rcases ih found with same | ⟨number,below,same⟩
      · exact .inr ⟨copy,by omega,same⟩
      · exact .inr ⟨number,by omega,same⟩
    cases found
    exact .inl rfl

theorem search_mono (more : fuel ≤ wider) : search key used numbered wider copy candidate = some result := by
  induction fuel generalizing copy candidate wider with
  | zero => cases found
  | succ fuel ih =>
    obtain ⟨wider,rfl⟩ : ∃ less, wider = less + 1 := ⟨wider - 1,by omega⟩
    unfold search at found ⊢
    split at found
    · rename_i taken
      rw [if_pos taken]
      exact ih found (by omega)
    rename_i free
    rw [if_neg free]
    exact found
end

theorem search_none (failed : search key used numbered (fuel+1) copy candidate = none) : ∀ step < fuel, key (numbered (copy + step)) ∈ used := by
  induction fuel generalizing copy candidate with
  | zero => exact fun step below => absurd below (Nat.not_lt_zero step)
  | succ fuel ih =>
    unfold search at failed
    split at failed
    · have deeper := ih failed
      intro step below
      cases step with
      | zero =>
        unfold search at failed
        split at failed
        · rename_i taken
          exact taken
        cases failed
      | succ step =>
        have later := deeper step (by omega)
        rwa [show copy + 1 + step = copy + (step + 1) by omega] at later
    cases failed

theorem search_total (distinct : Distinct key numbered) (enough : used.length + 2 ≤ fuel) :
    ∃ result, search key used numbered fuel copy candidate = some result := by
  cases found : search key used numbered fuel copy candidate with
  | some result => exact ⟨result,rfl⟩
  | none =>
    obtain ⟨less,rfl⟩ : ∃ less, fuel = less + 1 := ⟨fuel - 1,by omega⟩
    have taken := search_none found
    have apart : ((List.range less).map fun step => key (numbered (copy + step))).Nodup := by
      refine List.Nodup.map (fun first second same => ?_) List.nodup_range
      have equal := distinct _ _ same
      omega
    have inside : (List.range less).map (fun step => key (numbered (copy + step))) ⊆ used := by
      intro _ mem
      obtain ⟨step,below,rfl⟩ := List.mem_map.mp mem
      exact taken step (List.mem_range.mp below)
    have short := (List.subperm_of_subset apart inside).length_le
    rw [List.length_map,List.length_range] at short
    omega
end LedgeTopOps.FreshNames
