import LedgeTopOps.AtomicPrograms

namespace LedgeTopOps.SqlBatches
open AtomicPrograms

-- The statements of one transaction. Each sees what those before it left and how many rows the last one changed; one
-- that raises an error gives none, and the transaction has no effect.
abbrev Statement (σ : Type) := σ → Nat → Option (σ × Nat)

def batch : List (Statement σ) → σ → Nat → Option (σ × List Nat)
  | [], s, _ => some (s,[])
  | first :: rest, s, changes => (first s changes).bind fun one =>
    (batch rest one.1 one.2).map fun more => (more.1,one.2 :: more.2)

def commit (statements : List (Statement σ)) (s : σ) : σ := ((batch statements s 0).map Prod.fst).getD s

def guarded (condition : σ → Nat → Bool) (change : σ → Option σ) : Statement σ := fun s changes =>
  if condition s changes then (change s).map fun after => (after,1) else some (s,0)

def transact (statements : List (Statement σ)) (threw : Program σ ρ) (next : List Nat → Program σ ρ) : Program σ ρ :=
  .call (commit statements) (fun s => match batch statements s 0 with
    | some result => next result.2
    | none => threw) threw

variable {σ ρ : Type}

theorem batch_cons : batch (first :: rest) s changes = some (u,counts) ↔
    ∃ t changed more, first s changes = some (t,changed) ∧ batch rest t changed = some (u,more) ∧ counts = changed :: more := by
  have unfolded : batch (first :: rest) s changes = (first s changes).bind fun one =>
    (batch rest one.1 one.2).map fun more => (more.1,one.2 :: more.2) := rfl
  rw [unfolded]
  constructor
  · intro done
    obtain ⟨one,ran,tail⟩ := Option.bind_eq_some_iff.mp done
    obtain ⟨more,others,same⟩ := Option.map_eq_some_iff.mp tail
    cases same
    exact ⟨one.1,one.2,more.2,ran,others,rfl⟩
  intro found
  obtain ⟨t,_,_,ran,others,rfl⟩ := found
  rw [ran,Option.bind_some,others]
  rfl

theorem batch_append (done : batch (statements++rest) s changes = some (u,counts)) :
    ∃ t first last more, batch statements s changes = some (t,first) ∧ batch rest t last = some (u,more) ∧ counts = first++more := by
  induction statements generalizing s changes counts with
  | nil => exact ⟨s,[],changes,counts,rfl,done,rfl⟩
  | cons _ _ ih =>
    obtain ⟨t,changed,_,ran,further,rfl⟩ := batch_cons.mp done
    obtain ⟨middle,first,last,remaining,early,late,rfl⟩ := ih further
    exact ⟨middle,changed :: first,last,remaining,batch_cons.mpr ⟨t,changed,first,ran,early,rfl⟩,late,rfl⟩

theorem commit_some (done : batch statements s 0 = some (t,counts)) : commit statements s = t := by
  unfold commit
  rw [done]
  rfl

theorem commit_none (failed : batch statements s 0 = none) : commit statements s = s := by
  unfold commit
  rw [failed]
  rfl

theorem run_transact (threw : Program σ ρ) (next : List Nat → Program σ ρ) (done : batch statements s 0 = some (t,counts)) :
    (transact statements threw next).run s = (next counts).run t := by
  show (match batch statements s 0 with
    | some result => next result.2
    | none => threw).run (commit statements s) = _
  rw [commit_some done,done]

theorem guarded_some (done : guarded condition change s changes = some (t,changed)) :
    (condition s changes ∧ change s = some t ∧ changed = 1) ∨ (condition s changes = false ∧ t = s ∧ changed = 0) := by
  unfold guarded at done
  split at done
  · rename_i met
    obtain ⟨_,made,same⟩ := Option.map_eq_some_iff.mp done
    cases same
    exact .inl ⟨met,made,rfl⟩
  rename_i unmet
  cases done
  exact .inr ⟨by simpa using unmet,rfl,rfl⟩

-- A transaction keeps to the terms where both its ends do: the one that raised
-- an error has no effect.
theorem obeys_transact {next : List Nat → Program σ ρ} (committed : ∀ t u counts, terms.rely s t → terms.inside t → batch statements t 0 = some (u,counts) →
      terms.guarantee t u (next counts) ∧ Obeys terms (next counts) u) (idle : ∀ t, terms.inside t → terms.guarantee t t threw)
    (handled : ∀ t, terms.rely s t → terms.inside t → Obeys terms threw t) : Obeys terms (transact statements threw next) s := by
  intro t relied inside
  refine ⟨?_,handled t relied inside⟩
  cases ran : batch statements t 0 with
  | none =>
    rw [commit_none ran]
    simp only [ran]
    exact ⟨idle t inside,handled t relied inside⟩
  | some result =>
    obtain ⟨u,counts⟩ := result
    rw [commit_some ran]
    simp only [ran]
    exact committed t u counts relied inside ran
end LedgeTopOps.SqlBatches
