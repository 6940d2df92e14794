import LedgeTopOps.KeyedRows
import LedgeTopOps.StepRuns

namespace LedgeTopOps.UpsertedRows
open List KeyedRows StepRuns

-- INSERT .. ON CONFLICT DO UPDATE on rows with a key, and statements repeated for every element of a list.
variable {ρ κ α σ : Type} [DecidableEq κ] {key : ρ → κ} {rows : List ρ} {row fresh : ρ}

def upsert (key : ρ → κ) (rows : List ρ) (fresh : ρ) (change : ρ → ρ) : List ρ :=
  if rows.any (fun row => key row = key fresh) then amend key rows (key fresh) change else rows++[fresh]

theorem any_key {k : κ} : rows.any (fun row => key row = k) ↔ ∃ row ∈ rows, key row = k := by
  simp only [any_eq_true,decide_eq_true_eq]

theorem mem_upsert {change : ρ → ρ} (same : ∀ row ∈ rows, key row = key fresh → change row = fresh) :
    row ∈ upsert key rows fresh change ↔ row = fresh ∨ (row ∈ rows ∧ key row ≠ key fresh) := by
  unfold upsert
  split
  · rename_i found
    obtain ⟨stored,there,equal⟩ := any_key.mp found
    rw [mem_amend]
    constructor
    · rintro (apart | ⟨old,member,here,is⟩)
      · exact .inr apart
      · exact .inl (is.symm.trans (same old member here))
    rintro (rfl | apart)
    · exact .inr ⟨stored,there,equal,same stored there equal⟩
    · exact .inl apart
  rename_i absent
  have apart : ∀ row ∈ rows, key row ≠ key fresh := fun row member equal => absent (any_key.mpr ⟨row,member,equal⟩)
  rw [mem_append,mem_singleton]
  constructor
  · rintro (member | rfl)
    · exact .inr ⟨member,apart row member⟩
    · exact .inl rfl
  rintro (rfl | ⟨member,_⟩)
  · exact .inr rfl
  · exact .inl member

theorem keyed_upsert {change : ρ → ρ} (keyed : Keyed key rows) (same : ∀ row ∈ rows, key row = key fresh → key (change row) = key fresh) :
    Keyed key (upsert key rows fresh change) := by
  unfold upsert
  split
  · exact keyed.amend change fun row mem here => (same row mem here).trans here.symm
  rename_i absent
  exact keyed.add fun row mem equal => absent (any_key.mpr ⟨row,mem,equal⟩)

section
variable {change : ρ → ρ} {wanted : κ} {P : ρ → Prop} (same : ∀ row, key (change row) = key row)
include same

theorem find_upsert_apart (apart : wanted ≠ key fresh) : find key (upsert key rows fresh change) wanted = find key rows wanted := by
  unfold upsert
  split
  · rw [find_amend same]
    cases found : find key rows wanted with
    | none => rfl
    | some =>
      have named := (find_some found).2
      rw [Option.map_some,if_neg fun is => apart (named.symm.trans is)]
  have absent : [fresh].find? (fun row => decide (key row = wanted)) = none := find?_eq_none.mpr fun row mem is => by
    cases mem_singleton.mp mem
    exact apart (of_decide_eq_true is).symm
  rw [find,find?_append,absent,Option.or_none]
  rfl

omit same in
theorem upsert_others (mem : row ∈ upsert key rows fresh change) (same : ∀ row, key row = key fresh → key (change row) = key row) (apart : key row ≠ key fresh) : row ∈ rows := by
  unfold upsert at mem
  split at mem
  · rcases mem_amend.mp mem with ⟨old,_⟩ | ⟨old,_,own,rfl⟩
    · exact old
    · exact absurd ((same old own).trans own) apart
  rcases mem_snoc.mp mem with old | rfl
  · exact old
  exact absurd rfl apart

omit same in
theorem upsert_mine (mem : row ∈ upsert key rows fresh change) (own : key row = key fresh) (new : P fresh)
    (old : ∀ row, key row = key fresh → P (change row)) : P row := by
  unfold upsert at mem
  split at mem
  · rcases mem_amend.mp mem with ⟨_,apart⟩ | ⟨before,_,named,rfl⟩
    · exact absurd own apart
    · exact old before named
  rename_i absent
  rcases mem_snoc.mp mem with before | rfl
  · exact absurd (any_key.mpr ⟨row,before,own⟩) absent
  exact new

theorem find_upsert_own (new : P fresh) (old : ∀ row, key row = key fresh → P (change row)) :
    ∃ row, find key (upsert key rows fresh change) (key fresh) = some row ∧ P row := by
  cases found : find key (upsert key rows fresh change) (key fresh) with
  | some row =>
    obtain ⟨mem,own⟩ := find_some found
    exact ⟨row,rfl,upsert_mine mem own new old⟩
  | none =>
    have absent := find_none.mp found
    unfold upsert at absent
    split at absent
    · rename_i there
      obtain ⟨before,mem,named⟩ := any_key.mp there
      exact absurd ((same before).trans named) (absent _ (mem_amend.mpr (.inr ⟨before,mem,named,rfl⟩)))
    exact absurd rfl (absent fresh (mem_append_right _ (mem_singleton_self _)))
end

theorem foldlM_rec {f : σ → α → Option σ} {all : List α} {s t : σ} (P : List α → σ → Prop) (start : P [] s)
    (step : ∀ done x rest s t, all = done++x :: rest → P done s → f s x = some t → P (done++[x]) t)
    (ran : all.foldlM f s = some t) : P all t := by
  have further : ∀ (rest done : List α) (s : σ), all = done++rest → P done s → rest.foldlM f s = some t → P all t := by
    intro rest
    induction rest with
    | nil =>
      intro done s split holds ran
      cases ran
      rw [split,append_nil]
      exact holds
    | cons x rest ih =>
      intro done s split holds ran
      obtain ⟨next,moved,ran⟩ := Option.bind_eq_some_iff.mp ran
      exact ih (done++[x]) next (by rw [append_assoc]; exact split) (step done x rest s next split holds moved) ran
  exact further all [] s rfl start ran

theorem foldl_rec {f : σ → α → σ} {all : List α} {s : σ} (P : List α → σ → Prop) (start : P [] s)
    (step : ∀ done x rest s, all = done++x :: rest → P done s → P (done++[x]) (f s x)) : P all (all.foldl f s) := by
  refine foldlM_rec (f := fun s x => some (f s x)) P start ?_ ?_
  · intro done x rest s t split holds moved
    cases moved
    exact step done x rest s split holds
  exact foldlM_pure (m := Option) (f := f) (l := all) (b := s)

omit [DecidableEq κ] in
theorem done_apart {reading : α → κ} {done rest all : List α} {x : α} (distinct : (all.map reading).Nodup) (split : all = done++x :: rest) :
    ∀ other ∈ done, reading other ≠ reading x := by
  intro other mem same
  rw [split,map_append,map_cons] at distinct
  exact (disjoint_of_nodup_append distinct) (mem_map_of_mem mem) (same ▸ .head _)

def Gathered (key : ρ → κ) (made : α → ρ) (old : List ρ) (done : List α) (rows : List ρ) : Prop :=
  ∀ row, row ∈ rows ↔ (∃ x ∈ done, row = made x) ∨ (row ∈ old ∧ ∀ x ∈ done, key row ≠ key (made x))

omit [DecidableEq κ] in
theorem gathered_nil {made : α → ρ} : Gathered key made rows [] rows := fun row => by simp

omit [DecidableEq κ] in
theorem Gathered.add {made : α → ρ} {old later : List ρ} {done : List α} {x : α} (gathered : Gathered key made old done rows) (apart : ∀ other ∈ done, key (made other) ≠ key (made x))
    (changed : ∀ row, row ∈ later ↔ row = made x ∨ (row ∈ rows ∧ key row ≠ key (made x))) : Gathered key made old (done++[x]) later := by
  intro _
  rw [changed,gathered]
  simp only [mem_append,mem_singleton]
  constructor
  · rintro (rfl | ⟨⟨other,earlier,rfl⟩ | ⟨old,others⟩,here⟩)
    · exact .inl ⟨x,.inr rfl,rfl⟩
    · exact .inl ⟨other,.inl earlier,rfl⟩
    · exact .inr ⟨old,fun other which => which.elim (others other) fun is => is ▸ here⟩
  rintro (⟨other,earlier | rfl,rfl⟩ | ⟨old,others⟩)
  · exact .inr ⟨.inl ⟨other,earlier,rfl⟩,apart other earlier⟩
  · exact .inl rfl
  · exact .inr ⟨.inr ⟨old,fun other earlier => others other (.inl earlier)⟩,others x (.inr rfl)⟩
end LedgeTopOps.UpsertedRows
