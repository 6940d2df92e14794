import Mathlib.Data.List.Basic

namespace LedgeTopOps.BoundedRounds
open List

-- A loop over the items that stops once the limit is reached.
def upTo (limit : Nat) (step : List α → β → List α) : List α → List β → List α
  | served,[] => served
  | served,item :: rest => if served.length < limit then upTo limit step (step served item) rest else served

-- One step serves what the item offers, cut at the limit.
def Fills (limit : Nat) (step : List α → β → List α) (offers : β → List α) : Prop :=
  ∀ served item, served.length < limit → step served item = (served++offers item).take limit

theorem upTo_full (full : limit ≤ served.length) : upTo limit step served items = served := by
  cases items with
  | nil => rfl
  | cons => rw [upTo,if_neg (Nat.not_lt.mpr full)]

theorem upTo_fills (fills : Fills limit step offers) (within : served.length ≤ limit) :
    upTo limit step served items = (served++items.flatMap offers).take limit := by
  induction items generalizing served with
  | nil => rw [upTo,flatMap_nil,append_nil,take_of_length_le within]
  | cons item rest ih =>
    rcases Nat.lt_or_eq_of_le within with room | full
    · rw [upTo,if_pos room,ih (by rw [fills _ _ room]; exact length_take_le _ _),fills _ _ room,flatMap_cons,←append_assoc]
      rw [take_append,@take_append _ (served++offers item),take_take,Nat.min_self,length_take]
      congr 2
      omega
    rw [upTo_full (Nat.le_of_eq full.symm),take_append_of_le_length (Nat.le_of_eq full.symm),take_of_length_le within]

theorem fills_upTo {offers : β → γ → List α} {step : γ → List α → β → List α} {items : γ → List β}
    (fills : ∀ c, Fills limit (step c) fun item => offers item c) :
    Fills limit (fun served c => upTo limit (step c) served (items c)) fun c => (items c).flatMap fun item => offers item c :=
  fun _ c room => upTo_fills (fills c) (Nat.le_of_lt room)

theorem take_later {front rest : List α} (served : x ∈ (front++rest).take limit) (later : x ∉ front) :
    ∃ back, (front++rest).take limit = front++back ∧ x ∈ back := by
  rw [take_append] at served ⊢
  rcases mem_append.mp served with early | late
  · exact absurd (mem_of_mem_take early) later
  have room : front.length ≤ limit := by
    by_contra short
    rw [Nat.sub_eq_zero_of_le (by omega),take_zero] at late
    cases late
  exact ⟨_,by rw [take_of_length_le room],late⟩
end LedgeTopOps.BoundedRounds
