import Mathlib.Data.List.Basic

-- The flows of a system by their places, after one of them has moved. Nothing here names a program.
namespace LedgeTopOps.FlowLists

variable {α : Type*} {flows : List α}

theorem moved_own (here : flows[i]? = some flow) : (flows.set i after)[i]? = some after :=
  List.getElem?_set_self (List.getElem?_eq_some_iff.mp here).1

theorem moved_here (here : flows[i]? = some flow) : after ∈ flows.set i after := List.mem_of_getElem? (moved_own here)

theorem moved_other (apart : j ≠ i) (there : flows[j]? = some other) : (flows.set i after)[j]? = some other :=
  (List.getElem?_set_ne (Ne.symm apart)).trans there

theorem moved_get (there : (flows.set i after)[j]? = some other) : (j = i ∧ other = after) ∨ (j ≠ i ∧ flows[j]? = some other) := by
  by_cases same : j = i
  · subst same
    have inside := (List.getElem?_eq_some_iff.mp there).1
    rw [List.getElem?_set_self (by rwa [List.length_set] at inside)] at there
    exact .inl ⟨rfl,(Option.some.inj there).symm⟩
  exact .inr ⟨same,(List.getElem?_set_ne (Ne.symm same)).symm.trans there⟩

theorem moved_member (mem : other ∈ flows.set i after) : other = after ∨ ∃ j, j ≠ i ∧ flows[j]? = some other := by
  obtain ⟨place,there⟩ := List.mem_iff_getElem?.mp mem
  exact (moved_get there).imp And.right fun before => ⟨place,before⟩

theorem moved_still (after : α) (here : flows[i]? = some flow) (mem : other ∈ flows) : other = flow ∨ other ∈ flows.set i after := by
  obtain ⟨place,there⟩ := List.mem_iff_getElem?.mp mem
  by_cases same : place = i
  · subst same
    exact .inl (Option.some.inj (there.symm.trans here))
  exact .inr (List.mem_of_getElem? (moved_other same there))
end LedgeTopOps.FlowLists
