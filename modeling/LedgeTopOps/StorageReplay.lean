import LedgeTopOps.StorageHistory
import Mathlib.Logic.Function.Iterate

namespace LedgeTopOps.StorageLifecycle
open KeyedRows StepRuns Function
open Nat (le_of_ble_eq_true lt_succ_self)

def device (same : Bool) : Outcome := if same then .done else .crossDevice
def resume (same : Bool) (p : Process) : Process := step p (.advance (device same))
def applyStorageMutation (same : Bool) (id : Nat) (e : Entity) : Process := (resume same)^[11] ⟨e,some ⟨id,.read⟩⟩

def Phase.rank : Phase → Nat
  | .read => 10
  | .source _ => 9
  | .destination _ _ => 8
  | .move _ | .remaining _ => 7
  | .rename _ | .remove _ => 6
  | .mark _ _ => 5
  | .reread => 4
  | .verifySource _ => 3
  | .verifyDestination _ _ | .verifyRemoved _ => 2
  | .complete | .fail => 1

def Process.rank (p : Process) : Nat := match p.running with
  | none => 0
  | some run => run.phase.rank

variable {p : Process} {e : Entity} {id : Nat}

theorem decided_rank (m : Mutation) (sourceExists destinationExists : Bool) : (decided m sourceExists destinationExists).rank ≤ 7 := by
  unfold decided
  split
  · decide
  · exact le_of_ble_eq_true rfl
  · exact le_of_ble_eq_true rfl
  split <;> exact le_of_ble_eq_true rfl

theorem read_rank (next : read id e = some phase) : phase.rank < 10 := by
  unfold read at next
  split at next
  · cases next
  split at next
  · cases next
  · cases next
  · cases next
    exact Nat.lt_of_lt_of_le (lt_succ_self 7) (by decide)
  · cases next
    exact lt_succ_self 9
  cases next
  decide

theorem reread_rank (id : Nat) (e : Entity) : (reread id e).rank < 4 := by
  unfold reread
  split
  · split
    · split <;> exact le_of_ble_eq_true rfl
    · decide
  decide

theorem marked_rank (id : Nat) (e : Entity) : (marked id e).rank < 5 := by
  unfold marked
  split
  · split <;> decide
  decide

theorem advance_rank (next : (advance id e phase outcome).2 = some further) : further.rank < phase.rank := by
  unfold advance at next
  split at next
  · cases next
  · cases next
  · cases next
  · exact read_rank next
  · cases next
    exact lt_succ_self 8
  · cases next
    exact Nat.lt_succ_of_le (decided_rank ..)
  · split at next
    · split at next <;> cases next <;> exact le_of_ble_eq_true rfl
    · cases next
  · split at next
    · cases next
      exact lt_succ_self 5
    · cases next
  · cases next
    split <;> exact le_of_ble_eq_true rfl
  · cases next
    exact lt_succ_self 5
  · cases next
    exact marked_rank ..
  · cases next
    exact reread_rank ..
  · cases next
    exact lt_succ_self 2
  · cases next
    split <;> exact lt_succ_self 1
  · cases next
    split <;> exact lt_succ_self 1
  · cases next
  · cases next

theorem step_advance (e : Entity) (run : Run) (outcome : Outcome) : step ⟨e,some run⟩ (.advance outcome) =
    ⟨(advance run.id e run.phase outcome).1,(advance run.id e run.phase outcome).2.map (Run.mk run.id)⟩ := rfl

theorem resume_rank (same : Bool) (p : Process) : (resume same p).rank ≤ p.rank-1 := by
  obtain ⟨e,running⟩ := p
  cases running with
  | none => exact Nat.le_refl 0
  | some run =>
    rw [resume,step_advance]
    cases next : (advance run.id e run.phase (device same)).2 with
    | none => exact Nat.zero_le _
    | some => exact Nat.le_pred_of_lt (advance_rank next)

theorem iterate_rank (same : Bool) (n : Nat) (p : Process) : ((resume same)^[n] p).rank ≤ p.rank-n := by
  induction n generalizing p with
  | zero => exact Nat.le_refl _
  | succ _ ih =>
    have one := ih (resume same p)
    have first := resume_rank same p
    rw [iterate_succ_apply]
    omega

theorem rank_idle (idle : p.rank = 0) : p.running = none := by
  obtain ⟨e,running⟩ := p
  cases running with
  | none => rfl
  | some run =>
    obtain ⟨_,phase⟩ := run
    cases phase <;> cases idle

theorem phase_rank (phase : Phase) : phase.rank ≤ 10 := by
  cases phase <;> exact le_of_ble_eq_true rfl

theorem resume_idle (idle : p.running = none) : resume same p = p := by
  obtain ⟨e,_⟩ := p
  cases idle
  rfl

theorem finished (same : Bool) (p : Process) : ((resume same)^[11] p).running = none := by
  have bound := iterate_rank same 11 p
  have least : p.rank ≤ 10 := by
    unfold Process.rank
    split
    · exact Nat.zero_le _
    exact phase_rank _
  exact rank_idle (by omega)

theorem application_ends (same : Bool) (id : Nat) (e : Entity) : (applyStorageMutation same id e).running = none := finished _ _

theorem finish_resume (same : Bool) (p : Process) : (resume same)^[11] (resume same p) = (resume same)^[11] p := by
  rw [←iterate_succ_apply,iterate_succ_apply',resume_idle (finished same p)]

def Current (same : Bool) (id : Nat) (p : Process) : Prop := ∃ k, (resume same)^[k] ⟨p.entity,some ⟨id,.read⟩⟩ = p

theorem Current.finish (current : Current same id p) : applyStorageMutation same id p.entity = (resume same)^[11] p := by
  obtain ⟨k,reached⟩ := current
  have all : ∀ n q, (resume same)^[11] ((resume same)^[n] q) = (resume same)^[11] q := by
    intro n
    induction n with
    | zero => exact fun q => rfl
    | succ n ih =>
      intro q
      show (resume same)^[11] ((resume same)^[n] (resume same q)) = _
      rw [ih,finish_resume]
  conv_rhs => rw [←reached]
  exact (all k _).symm

theorem Current.resumed (current : Current same id p) (unchanged : (resume same p).entity = p.entity) : Current same id (resume same p) := by
  obtain ⟨k,reached⟩ := current
  refine ⟨k+1,?_⟩
  rw [unchanged,iterate_succ_apply',reached]

def Phase.reading : Phase → Bool
  | .rename _ | .remove _ | .mark _ _ | .complete | .fail => false
  | _ => true

theorem advance_reading (reading : phase.reading) : (advance id e phase outcome).1 = e := by
  unfold advance
  split
  · cases reading
  · rfl
  · rfl
  · rfl
  · rfl
  · rfl
  · split
    · split <;> rfl
    · rfl
  · cases reading
  · rfl
  · cases reading
  · cases reading
  · rfl
  · rfl
  · rfl
  · rfl
  · cases reading
  · cases reading

theorem resume_read (same : Bool) (id : Nat) (e : Entity) : resume same ⟨e,some ⟨id,.read⟩⟩ = ⟨e,(read id e).map (Run.mk id)⟩ := by
  cases same <;> rfl

theorem resume_source (same : Bool) (id : Nat) (e : Entity) (m : Mutation) :
    resume same ⟨e,some ⟨id,.source m⟩⟩ = ⟨e,some ⟨id,.destination m (existsAt e m.source)⟩⟩ := by
  cases same <;> rfl

theorem resume_destination (same : Bool) (id : Nat) (e : Entity) (m : Mutation) (sourceExists : Bool) :
    resume same ⟨e,some ⟨id,.destination m sourceExists⟩⟩ = ⟨e,some ⟨id,decided m sourceExists (existsAt e m.destination)⟩⟩ := by
  cases same <;> rfl

theorem resume_remaining (same : Bool) (id : Nat) (e : Entity) (m : Mutation) :
    resume same ⟨e,some ⟨id,.remaining m⟩⟩ = ⟨e,some ⟨id,if existsAt e m.source then .remove m else .mark m m.destination⟩⟩ := by
  cases same <;> rfl

theorem resume_remove (same : Bool) (id : Nat) (e : Entity) (m : Mutation) :
    resume same ⟨e,some ⟨id,.remove m⟩⟩ = ⟨e.put m.source none,some ⟨id,.mark m m.destination⟩⟩ := by
  cases same <;> rfl

theorem amended_found (journal : Journal given e pending) (mem : m ∈ e.mutations)
    (kept : ∀ row, (change row).id = row.id) : (e.amend m.id change).getStorageMutation m.id = some (change m) := by
  have keyed : Keyed Mutation.id (e.amend m.id change).mutations := journal.keyed.amend change fun row _ _ => kept row
  have found := keyed.find (mem_amend.mpr (.inr ⟨m,mem,rfl,rfl⟩))
  rw [kept] at found
  exact found

theorem rename_current (inv : Inv given ⟨e,some ⟨id,.rename m⟩⟩ pending location) (moved : renamed m e = some next) :
    Current same id ⟨next,some ⟨id,.mark m m.destination⟩⟩ := by
  have holding := inv.holding _ rfl
  have apart := rename_apart inv.journal inv.situation holding
  obtain ⟨⟨current,rfl,status⟩,type,here⟩ := holding
  subst current
  obtain ⟨node,rfl⟩ : ∃ node, (e.put m.destination (some node)).put m.source none = next := by
    unfold renamed at moved
    split at moved
    · exact ⟨_,Option.some.inj moved⟩
    · exact ⟨_,Option.some.inj moved⟩
    cases moved
  have found : ((e.put m.destination (some node)).put m.source none).getStorageMutation m.id = some m := by
    unfold Entity.getStorageMutation
    rw [put_mutations,put_mutations]
    exact inv.journal.found inv.journal.member
  have reading : read m.id ((e.put m.destination (some node)).put m.source none) = some (.source m) := by
    unfold read
    rw [found]
    dsimp only
    rw [status]
    cases kind : m.type with
    | purge => exact absurd kind type
    | trash | restore => rfl
  have named : m.source ≠ .blank := by
    intro blank
    obtain ⟨_,there,-⟩ := inv.resides.there _ here
    rw [blank] at there
    cases there
  have gone : existsAt ((e.put m.destination (some node)).put m.source none) m.source = false := by
    unfold existsAt
    rw [at_put _ named]
    rfl
  have arrived : existsAt ((e.put m.destination (some node)).put m.source none) m.destination := by
    unfold existsAt
    rw [at_put_other _ apart.1.symm,at_put _ apart.2]
    rfl
  refine ⟨3,?_⟩
  show resume same (resume same (resume same _)) = _
  rw [resume_read,reading]
  show resume same (resume same ⟨_,some ⟨_,_⟩⟩) = _
  rw [resume_source,resume_destination,gone,arrived]
  rfl

theorem remove_current (inv : Inv given ⟨e,some ⟨id,.remove m⟩⟩ pending location) : Current same id ⟨e.put m.source none,some ⟨id,.mark m m.destination⟩⟩ := by
  obtain ⟨⟨current,rfl,status⟩,type⟩ := inv.holding _ rfl
  subst current
  have found : (e.put m.source none).getStorageMutation m.id = some m := by
    unfold Entity.getStorageMutation
    rw [put_mutations]
    exact inv.journal.found inv.journal.member
  have reading : read m.id (e.put m.source none) = some (.remaining m) := by
    unfold read
    rw [found]
    dsimp only
    rw [status,type]
  have gone : existsAt (e.put m.source none) m.source = false := by
    unfold existsAt
    by_cases blank : m.source = .blank
    · rw [blank]
      rfl
    rw [at_put _ blank]
    rfl
  refine ⟨2,?_⟩
  show resume same (resume same _) = _
  rw [resume_read,reading]
  show resume same ⟨_,some ⟨_,_⟩⟩ = _
  rw [resume_remaining,gone]
  rfl

theorem mark_current (inv : Inv given ⟨e,some ⟨id,.mark m destination⟩⟩ pending location) :
    Current same id ⟨markStorageMutationFsApplied id destination e,some ⟨id,marked id e⟩⟩ := by
  obtain ⟨⟨current,rfl,status⟩,-⟩ := inv.holding _ rfl
  subst current
  have changed : m.applied destination = { m with status := .fsApplied, destination := destination } := if_pos inv.journal.active
  have found : (markStorageMutationFsApplied m.id destination e).getStorageMutation m.id = some (m.applied destination) :=
    amended_found inv.journal inv.journal.member (applied_id destination)
  have phase : marked m.id e = .reread := by
    unfold marked
    rw [inv.journal.found inv.journal.member]
    dsimp only
    rw [if_neg]
    rw [status]
    nofun
  have reading : read m.id (markStorageMutationFsApplied m.id destination e) = some .reread := by
    unfold read
    rw [found,changed]
  refine ⟨1,?_⟩
  rw [iterate_one,resume_read,reading,phase]
  rfl

theorem ended_current (found : next.getStorageMutation id = some m) (reached : m.status = status)
    (ended : status = .complete ∨ status = .failed) : Current same id ⟨next,none⟩ := by
  have reading : read id next = none := by
    unfold read
    rw [found]
    dsimp only
    rw [reached]
    rcases ended with rfl | rfl
    · rfl
    rfl
  refine ⟨1,?_⟩
  rw [iterate_one,resume_read,reading]
  rfl

theorem complete_current (inv : Inv given ⟨e,some ⟨id,.complete⟩⟩ pending location) : Current same id ⟨completeStorageMutation id e,none⟩ := by
  obtain ⟨m,current,rfl,status⟩ := inv.holding _ rfl
  subst current
  have found : (completeStorageMutation m.id e).getStorageMutation m.id = some m.completed := by
    unfold completeStorageMutation
    rw [inv.journal.found inv.journal.member]
    dsimp only
    rw [if_pos status]
    have same := amended_found inv.journal inv.journal.member completed_id
    unfold Entity.getStorageMutation Entity.amend at same ⊢
    rw [completed_mutations]
    exact same
  exact ended_current found (by rw [amend_completed m status]) (.inl rfl)

theorem fail_current (inv : Inv given ⟨e,some ⟨id,.fail⟩⟩ pending location) : Current same id ⟨failStorageMutation id e,none⟩ := by
  obtain ⟨m,current,rfl,-⟩ := inv.holding _ rfl
  subst current
  have found : (failStorageMutation m.id e).getStorageMutation m.id = some m.failed :=
    amended_found inv.journal inv.journal.member failed_id
  refine ended_current found ?_ (.inr rfl)
  unfold Mutation.failed
  rw [if_pos inv.journal.active]

theorem resume_current (inv : Inv given ⟨e,some ⟨id,phase⟩⟩ pending location)
    (current : Current same id ⟨e,some ⟨id,phase⟩⟩) : Current same id (resume same ⟨e,some ⟨id,phase⟩⟩) := by
  cases reading : phase.reading with
  | true =>
    have unchanged : (resume same ⟨e,some ⟨id,phase⟩⟩).entity = e := advance_reading reading
    exact current.resumed unchanged
  | false =>
    cases phase with
    | rename m =>
      cases moved : renamed m e with
      | none =>
        have unchanged : (resume same ⟨e,some ⟨id,.rename m⟩⟩).entity = e := by
          cases same <;> simp [resume,step_advance,device,advance,moved]
        exact current.resumed unchanged
      | some next =>
        have took : resume same ⟨e,some ⟨id,.rename m⟩⟩ = ⟨next,some ⟨id,.mark m m.destination⟩⟩ := by
          cases same <;> simp [resume,step_advance,device,advance,moved]
        rw [took]
        exact rename_current inv moved
    | remove =>
      rw [resume_remove]
      exact remove_current inv
    | mark m destination =>
      have took : resume same ⟨e,some ⟨id,.mark m destination⟩⟩ = ⟨markStorageMutationFsApplied id destination e,some ⟨id,marked id e⟩⟩ := by
        cases same <;> rfl
      rw [took]
      exact mark_current inv
    | complete =>
      have took : resume same ⟨e,some ⟨id,.complete⟩⟩ = ⟨completeStorageMutation id e,none⟩ := by
        cases same <;> rfl
      rw [took]
      exact complete_current inv
    | fail =>
      have took : resume same ⟨e,some ⟨id,.fail⟩⟩ = ⟨failStorageMutation id e,none⟩ := by
        cases same <;> rfl
      rw [took]
      exact fail_current inv
    | _ => cases reading

theorem put_twice (e : Entity) (node : Option Node) : (e.put place node).put place none = e.put place none := by
  cases place with
  | home | blank => rfl
  | trash => exact congrArg (fun bin => { e with bin := bin }) (update_idem ..)

theorem damaged_apply (inv : Inv given ⟨e,some ⟨id,.remove m⟩⟩ pending location) (found : e.at m.source = some (.content whole)) :
    applyStorageMutation same id (e.put m.source (some (.content false))) = applyStorageMutation same id e := by
  obtain ⟨⟨current,rfl,status⟩,type⟩ := inv.holding _ rfl
  subst current
  have named : m.source ≠ .blank := by
    intro blank
    rw [blank] at found
    cases found
  have removes : ∀ next : Entity, next.mutations = e.mutations → existsAt next m.source →
      applyStorageMutation same m.id next = (resume same)^[8] ⟨next.put m.source none,some ⟨m.id,.mark m m.destination⟩⟩ := by
    intro next rows there
    have reading : read m.id next = some (.remaining m) := by
      unfold read Entity.getStorageMutation
      rw [rows,inv.journal.keyed.find inv.journal.member]
      dsimp only
      rw [status,type]
    show (resume same)^[8] (resume same (resume same (resume same _))) = _
    rw [resume_read,reading]
    show (resume same)^[8] (resume same (resume same ⟨_,some ⟨_,_⟩⟩)) = _
    rw [resume_remaining,there,if_pos rfl,resume_remove]
  rw [removes e rfl (existsAt_iff.mpr ⟨_,found⟩),removes _ (put_mutations ..) (existsAt_iff.mpr ⟨_,at_put _ named _⟩),put_twice]

-- What may happen to one application of a mutation: its calls, errors and crashes
-- between them, and any number of new starts.
def Own (same : Bool) (id : Nat) : Event → Prop
  | .apply other => other = id
  | .advance outcome => outcome = device same ∨ outcome = .raised ∨ outcome = .partly
  | .crash => True
  | _ => False

structure Interrupted (given same : Bool) (id : Nat) (e : Entity) (p : Process) : Prop where
  sound : Sound given p
  result : applyStorageMutation same id p.entity = applyStorageMutation same id e
  current : ∀ run, p.running = some run → run.id = id ∧ Current same id p

theorem interrupted_step (interrupted : Interrupted given same id e p) (own : Own same id event) : Interrupted given same id e (step p event) := by
  obtain ⟨sound,result,current⟩ := interrupted
  obtain ⟨now,running⟩ := p
  cases event with
  | apply =>
    cases own
    cases running with
    | some => exact ⟨sound,result,current⟩
    | none =>
      refine ⟨step_sound sound trivial trivial,result,fun run started => ?_⟩
      cases started
      exact ⟨rfl,0,rfl⟩
  | crash => exact ⟨step_sound sound trivial trivial,result,fun run started => nomatch started⟩
  | advance outcome =>
    cases running with
    | none => exact ⟨sound,result,current⟩
    | some run =>
      obtain ⟨other,phase⟩ := run
      obtain ⟨same_,here⟩ := current _ rfl
      cases same_
      have after : Sound given (step ⟨now,some ⟨other,phase⟩⟩ (.advance outcome)) := step_sound sound trivial trivial
      obtain ⟨_,_,inv⟩ := sound
      have stopped : advance other now phase outcome = (now,none) → Interrupted given same other e (step ⟨now,some ⟨other,phase⟩⟩ (.advance outcome)) := by
        intro stops
        have halted : step ⟨now,some ⟨other,phase⟩⟩ (.advance outcome) = ⟨now,none⟩ := by
          rw [step_advance,stops]
          rfl
        rw [halted] at after ⊢
        exact ⟨after,result,fun run started => nomatch started⟩
      rcases own with rfl | rfl | rfl
      · have next := resume_current inv here
        refine ⟨after,?_,fun run started => ⟨?_,next⟩⟩
        · have finish := next.finish.trans (finish_resume same _)
          exact finish.trans (here.finish.symm.trans result)
        obtain ⟨_,-,made⟩ := Option.map_eq_some_iff.mp started
        rw [←made]
      · exact stopped (by cases phase <;> rfl)
      cases phase with
      | remove m =>
        cases found : now.at m.source with
        | none => exact stopped (by simp [advance,found])
        | some node =>
          cases node with
          | unrelated => exact stopped (by simp [advance,found])
          | content =>
            have broke : step ⟨now,some ⟨other,.remove m⟩⟩ (.advance .partly) = ⟨now.put m.source (some (.content false)),none⟩ := by
              rw [step_advance]
              simp [advance,found]
            rw [broke] at after ⊢
            exact ⟨after,(damaged_apply inv found).trans result,fun run started => nomatch started⟩
      | _ => exact stopped rfl
  | _ => exact own.elim

theorem interrupted_run (sound : Sound given ⟨e,none⟩)
    (path : Runs (Guarded (fun s event t => step s event = t) fun _ => Own same id) ⟨e,none⟩ events p) : Interrupted given same id e p := by
  refine path.preserves (Interrupted given same id e) ?_ ⟨sound,rfl,fun run started => nomatch started⟩
  intro s _ t interrupted taken
  obtain ⟨rfl,own⟩ := taken
  exact interrupted_step interrupted own
end LedgeTopOps.StorageLifecycle
