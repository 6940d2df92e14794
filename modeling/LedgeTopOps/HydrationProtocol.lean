import LedgeTopOps.HydrationSink

namespace LedgeTopOps.HydrationProtocol
open LittleEndian StepRuns HydrationSink Bool
open List (mem_append mem_singleton append_nil filter_append)

def written : Native → Option (Nat × Nat)
  | .execute _ _ _ status offset length _ succeeded => if status = 0 ∧ succeeded = true then some (offset,length) else none
  | _ => none

def writes (calls : List Native) : List (Nat × Nat) := calls.filterMap written

def isData : Native → Bool
  | .execute _ _ _ status .. => decide (status = 0)
  | _ => false

def isFailure : Native → Bool
  | .execute _ _ _ status .. => decide (status ≠ 0)
  | _ => false

def Contiguous (position : Nat) : List (Nat × Nat) → Prop
  | [] => True
  | (offset,length) :: rest => offset = position ∧ Contiguous (position+length) rest

def reach (position : Nat) (ranges : List (Nat × Nat)) : Nat := ranges.foldl (fun current range => current+range.2) position

def Closing (accepted : Accepted) (call : Native) : Prop :=
  isFailure call = true ∨ ∃ range, written call = some range ∧ range.1+range.2 = accepted.stop

structure Protocol (accepted : Accepted) (calls : List Native) : Prop where
  contiguous : Contiguous accepted.start (writes calls)
  placed : ∀ range ∈ writes calls, 0 < range.2 ∧ accepted.start ≤ range.1 ∧ range.1+range.2 ≤ accepted.stop ∧
    range.1%4096 = 0 ∧ (range.2%4096 = 0 ∨ range.1+range.2 = accepted.size)
  covering : ∀ connection transfer request status offset length buffer succeeded,
    Native.execute connection transfer request status offset length buffer succeeded ∈ calls → status ≠ 0 →
      offset = accepted.start ∧ length = accepted.length ∧ buffer = none
  once : (calls.filter isFailure).length ≤ 1
  incomplete : calls.any isFailure = true → ∀ range ∈ writes calls, range.1+range.2 < accepted.stop
  last : ∀ earlier call later, calls = earlier++call :: later → Closing accepted call → later = []
  broken : ∀ earlier call later, calls = earlier++call :: later → isData call = true → written call = none →
    ∀ next ∈ later, isData next = false

def Opened (accepted : Accepted) (calls : List Native) : Prop := ∀ call ∈ calls, ¬Closing accepted call
def Unbroken (calls : List Native) : Prop := ∀ call ∈ calls, isData call = true → written call ≠ none

section

theorem Contiguous.concat (prior : Contiguous position ranges) (starts : offset = reach position ranges) : Contiguous position (ranges++[(offset,length)]) := by
  induction ranges generalizing position with
  | nil => exact ⟨starts,trivial⟩
  | cons _ _ ih => exact ⟨prior.1,ih prior.2 starts⟩

theorem reach_concat : reach position (ranges++[(offset,length)]) = reach position ranges+length := by
  unfold reach
  rw [List.foldl_append]
  rfl

theorem le_reach : position ≤ reach position ranges := by
  induction ranges generalizing position with
  | nil => exact Nat.le_refl _
  | cons range _ ih => exact Nat.le_trans (Nat.le_add_right position range.2) ih

theorem ends_within (prior : Contiguous position ranges) (member : range ∈ ranges) : range.1+range.2 ≤ reach position ranges := by
  induction ranges generalizing position with
  | nil => cases member
  | cons _ rest ih =>
    cases member with
    | head =>
      have starts : range.1 = position := prior.1
      have further : position+range.2 ≤ reach (position+range.2) rest := le_reach
      rw [starts]
      exact further
    | tail _ later => exact ih prior.2 later

theorem writes_append : writes (calls++[call]) = writes calls++(written call).toList := by
  unfold writes
  cases result : written call <;> simp [result]

theorem last_append (opened : Opened accepted calls) (position : calls++[call] = earlier++ended :: later) (closing : Closing accepted ended) : later = [] := by
  rcases List.eq_nil_or_concat later with empty | ⟨front,back,split⟩
  · exact empty
  subst split
  have same : calls++[call] = (earlier++ended :: front)++[back] := by simpa using position
  have inside : calls = earlier++ended :: front := (List.append_inj' same rfl).1
  exact absurd closing (opened ended (by simp [inside]))

theorem broken_append (prior : Protocol accepted calls) (apart : isData call → Unbroken calls)
    (position : calls++[call] = earlier++failed :: later) (data : isData failed) (unwritten : written failed = none) : ∀ next ∈ later, isData next = false := by
  rcases List.eq_nil_or_concat later with empty | ⟨front,back,split⟩
  · simp [empty]
  subst split
  have same : calls++[call] = (earlier++failed :: front)++[back] := by simpa using position
  obtain ⟨inside,final⟩ := List.append_inj' same rfl
  cases List.head_eq_of_cons_eq final
  intro next mem
  rw [List.concat_eq_append] at mem
  rcases mem_append.mp mem with before | here
  · exact prior.broken earlier failed front inside data unwritten next before
  cases mem_singleton.mp here
  cases kind : isData call with
  | false => rfl
  | true => exact absurd unwritten (apart kind failed (by simp [inside]) data)

theorem no_failures (opened : Opened accepted calls) : calls.filter isFailure = [] := by
  apply List.filter_eq_nil_iff.mpr
  intro call mem failure
  exact opened call mem (Or.inl failure)

theorem any_failure_append : (calls++[call]).any isFailure = (calls.any isFailure || isFailure call) := by simp

section
variable (prior : Protocol accepted calls) (opened : Opened accepted calls)
include prior opened

theorem Protocol.progress : Protocol accepted (calls++[progressCall accepted succeeded]) := by
  have same : writes (calls++[progressCall accepted succeeded]) = writes calls := by
    rw [writes_append]
    exact append_nil _
  have kind : isFailure (progressCall accepted succeeded) = false := rfl
  constructor
  · rw [same]
    exact prior.contiguous
  · rw [same]
    exact prior.placed
  · intro _ _ _ _ _ _ _ _ mem
    rcases mem_append.mp mem with before | here
    · exact prior.covering _ _ _ _ _ _ _ _ before
    cases mem_singleton.mp here
  · rw [filter_append,List.filter_singleton,kind]
    simpa using prior.once
  · rw [any_failure_append,kind,Bool.or_false,same]
    exact prior.incomplete
  · intro _ _ _ position
    exact last_append opened position
  intro _ _ _ position
  exact broken_append prior (fun data => absurd data (by simp [progressCall,isData])) position

theorem Protocol.data (unbroken : Unbroken calls)
    (reached : offset = reach accepted.start (writes calls)) (some_ : 0 < bytes.length)
    (inside : offset+bytes.length ≤ accepted.stop) (aligned : offset%4096 = 0)
    (tail : bytes.length%4096 = 0 ∨ offset+bytes.length = accepted.size) :
    Protocol accepted (calls++[executeCall accepted 0 offset bytes.length bytes succeeded]) := by
  have kind : isFailure (executeCall accepted 0 offset bytes.length bytes succeeded) = false := rfl
  have grown : writes (calls++[executeCall accepted 0 offset bytes.length bytes succeeded]) =
      writes calls++if succeeded then [(offset,bytes.length)] else [] := by
    rw [writes_append]
    cases succeeded <;> rfl
  have started : accepted.start ≤ offset := reached ▸ le_reach
  have failureless := no_failures opened
  constructor
  · rw [grown]
    cases succeeded with
    | false => simpa using prior.contiguous
    | true => exact prior.contiguous.concat reached
  · rw [grown]
    intro range mem
    rcases mem_append.mp mem with before | here
    · exact prior.placed range before
    cases succeeded with
    | false => simp at here
    | true =>
      cases mem_singleton.mp here
      exact ⟨some_,started,inside,aligned,tail⟩
  · intro _ _ _ _ _ _ _ _ mem nonzero
    rcases mem_append.mp mem with before | here
    · exact prior.covering _ _ _ _ _ _ _ _ before nonzero
    cases mem_singleton.mp here
    exact absurd rfl nonzero
  · rw [filter_append,failureless,List.filter_singleton,kind]
    simp
  · rw [any_failure_append,kind,Bool.or_false]
    intro failed
    have none_ : calls.any isFailure = false := by
      rw [List.any_eq_false]
      intro call mem failure
      exact opened call mem (Or.inl failure)
    rw [none_] at failed
    cases failed
  · intro _ _ _ position
    exact last_append opened position
  intro _ _ _ position
  exact broken_append prior (fun _ => unbroken) position

theorem Protocol.failure (failing : status ≠ 0) (short : reach accepted.start (writes calls) < accepted.stop) :
    Protocol accepted (calls++[executeCall accepted status accepted.start accepted.length bytes succeeded]) := by
  have same : writes (calls++[executeCall accepted status accepted.start accepted.length bytes succeeded]) = writes calls := by
    rw [writes_append]
    simp [executeCall,written,failing]
  have failureless := no_failures opened
  constructor
  · rw [same]
    exact prior.contiguous
  · rw [same]
    exact prior.placed
  · intro _ _ _ _ _ _ _ _ mem nonzero
    rcases mem_append.mp mem with before | here
    · exact prior.covering _ _ _ _ _ _ _ _ before nonzero
    have parts := mem_singleton.mp here
    simp only [executeCall,Native.execute.injEq,failing,if_false] at parts
    obtain ⟨-,-,-,-,rfl,rfl,rfl,-⟩ := parts
    exact ⟨rfl,rfl,rfl⟩
  · rw [filter_append,failureless,List.nil_append,List.filter_singleton]
    cases isFailure (executeCall accepted status accepted.start accepted.length bytes succeeded) <;> simp
  · intro _ _ mem
    rw [same] at mem
    exact Nat.lt_of_le_of_lt (ends_within prior.contiguous mem) short
  · intro _ _ _ position
    exact last_append opened position
  intro _ _ _ position
  exact broken_append prior (fun data => absurd data (by simp [executeCall,isData,failing])) position
end
end

structure InFlight (accepted : Accepted) (sink : Sink) (offset : Nat) (bytes : Bytes) (remaining : Nat) : Prop where
  position : offset = sink.next
  chunk : bytes.length = min 65536 remaining
  left : sink.next+remaining = accepted.stop
  more : remaining ≠ 0
  aligned : sink.next%4096 = 0

def Task (accepted : Accepted) (sink : Sink) (calls : List Native) : Main → Prop
  | .starting => sink.next = accepted.start ∧ Unbroken calls
  | .preparing => sink.next = accepted.start ∧ Unbroken calls
  | .transferring position remaining =>
    position = sink.next ∧ sink.next+remaining = accepted.stop ∧ (remaining ≠ 0 → sink.next%4096 = 0) ∧ Unbroken calls
  | .calling offset bytes remaining => InFlight accepted sink offset bytes remaining ∧ Unbroken calls
  | .joining offset bytes remaining => InFlight accepted sink offset bytes remaining ∧ Unbroken calls
  | .checking offset bytes remaining => InFlight accepted sink offset bytes remaining ∧ Unbroken calls
  | .writing offset bytes remaining => InFlight accepted sink offset bytes remaining ∧ Unbroken calls
  | _ => True

structure Inv (accepted : Accepted) (world : World) : Prop where
  protocol : Protocol accepted world.calls
  reached : world.sink.next = reach accepted.start (writes world.calls)
  within : world.sink.next ≤ accepted.stop
  committed : world.sink.committed = true ↔ world.sink.next = accepted.stop
  closed : world.sink.committed = true → world.sink.terminal = true
  opened : world.sink.terminal = false → Opened accepted world.calls
  task : Task accepted world.sink world.calls world.main

theorem initial_inv (accepted : Accepted) : Inv accepted (initial accepted) where
  protocol := by
    constructor
    · trivial
    · intro _ mem
      cases mem
    · intro _ _ _ _ _ _ _ _ mem
      cases mem
    · exact Nat.zero_le 1
    · intro failed
      cases failed
    · intro _ _ _ position
      simp [initial] at position
    intro _ _ _ position
    simp [initial] at position
  reached := rfl
  within := Nat.le_add_right _ _
  committed := by
    have positive := accepted.positive
    simp only [initial,false_eq_true,false_iff,Accepted.stop]
    omega
  closed := by
    intro committed
    cases committed
  opened := by
    intro _ _ mem
    cases mem
  task := ⟨rfl,fun call mem => by cases mem⟩

theorem InFlight.valid (flight : InFlight accepted sink offset bytes remaining) :
    invalidRange accepted sink offset bytes = false := by
  obtain ⟨position,chunk,left,more,aligned⟩ := flight
  have start := accepted.aligned
  have whole := accepted.whole
  have stop : accepted.stop = accepted.start+accepted.length := rfl
  simp only [invalidRange,or_eq_false_iff,and_eq_false_iff,decide_eq_false_iff_not]
  omega

theorem Inv.quiet (valid : Inv accepted world) (next : after.sink.next = world.sink.next)
    (terminal : after.sink.terminal = world.sink.terminal) (committed : after.sink.committed = world.sink.committed)
    (calls : after.calls = world.calls) (task : Task accepted after.sink after.calls after.main) : Inv accepted after where
  protocol := calls ▸ valid.protocol
  reached := by
    rw [next,calls]
    exact valid.reached
  within := next ▸ valid.within
  committed := by
    rw [committed,next]
    exact valid.committed
  closed := by
    rw [committed,terminal]
    exact valid.closed
  opened := by
    rw [terminal,calls]
    exact valid.opened
  task := task

theorem report_cases (reported : report accepted succeeded world = (result,after)) : (after = world ∧ result = false) ∨
    (world.sink.terminal = false ∧ after = { world with calls := world.calls++[progressCall accepted succeeded] }) := by
  unfold report at reported
  cases closed : world.sink.terminal with
  | true =>
    simp only [closed,if_true,Prod.mk.injEq] at reported
    exact Or.inl ⟨reported.2.symm,reported.1.symm⟩
  | false =>
    simp only [closed,false_eq_true,if_false,Prod.mk.injEq] at reported
    exact Or.inr ⟨rfl,reported.2.symm⟩

theorem Unbroken.progress (unbroken : Unbroken calls) : Unbroken (calls++[progressCall accepted succeeded]) := by
  intro call mem data
  rcases mem_append.mp mem with before | here
  · exact unbroken call before data
  cases mem_singleton.mp here
  cases data

theorem Opened.progress (opened : Opened accepted calls) : Opened accepted (calls++[progressCall accepted succeeded]) := by
  intro call mem
  rcases mem_append.mp mem with before | here
  · exact opened call before
  cases mem_singleton.mp here
  rintro (failure | ⟨range,written,_⟩)
  · cases failure
  · cases written

theorem writes_progress : writes (calls++[progressCall accepted succeeded]) = writes calls := by
  rw [writes_append]
  exact append_nil _

theorem Task.progress (task : Task accepted sink calls main) : Task accepted sink (calls++[progressCall accepted succeeded]) main := by
  cases main with
  | starting | preparing | calling | joining | checking | writing => exact ⟨task.1,task.2.progress⟩
  | transferring => exact ⟨task.1,task.2.1,task.2.2.1,task.2.2.2.progress⟩
  | _ => trivial

theorem Inv.report (valid : Inv accepted world) (reported : HydrationSink.report accepted succeeded world = (result,after)) :
    Inv accepted after ∧ after.sink = world.sink ∧ after.main = world.main ∧ after.pump = world.pump := by
  rcases report_cases reported with ⟨rfl,-⟩ | ⟨open_,rfl⟩
  · exact ⟨valid,rfl,rfl,rfl⟩
  refine ⟨?_,rfl,rfl,rfl⟩
  constructor
  · exact valid.protocol.progress (valid.opened open_)
  · simp only [writes_progress]
    exact valid.reached
  · exact valid.within
  · exact valid.committed
  · exact valid.closed
  · intro _
    exact (valid.opened open_).progress
  exact valid.task.progress

theorem written_execute : written (executeCall accepted 0 offset length bytes succeeded) =
    if succeeded then some (offset,length) else none := by
  cases succeeded <;> rfl

section
variable (valid : Inv accepted world) (open_ : world.sink.terminal = false) (flight : InFlight accepted world.sink offset bytes remaining) (unbroken : Unbroken world.calls)
include valid open_ flight unbroken

theorem Inv.dataFailed (cancelled : Bool) : Inv accepted (raised cancelled
      { world with calls := world.calls++[executeCall accepted 0 offset bytes.length bytes false] }) := by
  have guarded := flight.valid
  simp only [invalidRange,or_eq_false_iff,and_eq_false_iff,decide_eq_false_iff_not] at guarded
  have same : writes (world.calls++[executeCall accepted 0 offset bytes.length bytes false]) = writes world.calls := by
    rw [writes_append,written_execute]
    exact append_nil _
  constructor
  · have reached := valid.reached
    exact valid.protocol.data (valid.opened open_) unbroken (by omega) (by omega) (by omega) (by omega) (by omega)
  · simp only [raised,same]
    exact valid.reached
  · exact valid.within
  · exact valid.committed
  · exact valid.closed
  · intro _ call mem
    rcases mem_append.mp mem with before | here
    · exact valid.opened open_ call before
    cases mem_singleton.mp here
    rintro (failure | ⟨range,result,_⟩)
    · cases failure
    · cases result
  trivial

theorem Inv.dataWritten :
    Inv accepted { world with
      sink := { world.sink with
        next := world.sink.next+bytes.length
        committed := world.sink.committed || isFinal accepted world.sink bytes
        terminal := world.sink.terminal || isFinal accepted world.sink bytes }
      calls := world.calls++[executeCall accepted 0 offset bytes.length bytes true]
      main := .transferring (offset+bytes.length) (remaining-bytes.length) } := by
  have guarded := flight.valid
  simp only [invalidRange,or_eq_false_iff,and_eq_false_iff,decide_eq_false_iff_not] at guarded
  obtain ⟨position,chunk,left,more,aligned⟩ := flight
  have uncommitted : world.sink.committed = false := by
    cases done : world.sink.committed with
    | false => rfl
    | true =>
      rw [valid.closed done] at open_
      cases open_
  have grown : writes (world.calls++[executeCall accepted 0 offset bytes.length bytes true]) = writes world.calls++[(offset,bytes.length)] := by
    rw [writes_append,written_execute]
    rfl
  have reached := valid.reached
  constructor
  · exact valid.protocol.data (valid.opened open_) unbroken (by omega) (by omega) (by omega) (by omega) (by omega)
  · simp only [grown,reach_concat]
    omega
  · show world.sink.next+bytes.length ≤ accepted.stop
    omega
  · show (world.sink.committed || isFinal accepted world.sink bytes) ↔ world.sink.next+bytes.length = accepted.stop
    rw [uncommitted,Bool.false_or]
    exact decide_eq_true_iff
  · show (world.sink.committed || isFinal accepted world.sink bytes) →
      (world.sink.terminal || isFinal accepted world.sink bytes) = true
    rw [uncommitted,open_]
    exact id
  · show (world.sink.terminal || isFinal accepted world.sink bytes) = false → _
    rw [open_,Bool.false_or]
    intro unfinished call mem
    have short : world.sink.next+bytes.length ≠ accepted.stop := of_decide_eq_false unfinished
    rcases mem_append.mp mem with before | here
    · exact valid.opened open_ call before
    cases mem_singleton.mp here
    rintro (failure | ⟨range,result,ends⟩)
    · cases failure
    · rw [written_execute] at result
      cases Option.some.inj result
      exact short (by omega)
  refine ⟨by simp only [position],?_,?_,?_⟩
  · show world.sink.next+bytes.length+(remaining-bytes.length) = accepted.stop
    omega
  · show remaining-bytes.length ≠ 0 → (world.sink.next+bytes.length)%4096 = 0
    omega
  · intro call mem data
    rcases mem_append.mp mem with before | here
    · exact unbroken call before data
    cases mem_singleton.mp here
    exact Option.some_ne_none _
end

theorem Inv.failed (valid : Inv accepted world) (open_ : world.sink.terminal = false) (failing : status ≠ 0)
    (task : ∀ sink calls, Task accepted sink calls after) :
    Inv accepted { world with
      sink := { world.sink with terminal := true }
      calls := world.calls++[executeCall accepted status accepted.start accepted.length bytes succeeded]
      main := after } := by
  have same : writes (world.calls++[executeCall accepted status accepted.start accepted.length bytes succeeded]) =
      writes world.calls := by
    rw [writes_append]
    simp [executeCall,written,failing]
  have short : world.sink.next < accepted.stop := by
    apply Nat.lt_of_le_of_ne valid.within
    intro whole
    rw [valid.closed (valid.committed.mpr whole)] at open_
    cases open_
  constructor
  · exact valid.protocol.failure (valid.opened open_) failing (valid.reached ▸ short)
  · simp only [same]
    exact valid.reached
  · exact valid.within
  · exact valid.committed
  · intro _
    rfl
  · intro closed
    cases closed
  exact task _ _

theorem failure_status (chosen : Bool) : (if chosen then cancelledStatus else unavailable) ≠ 0 := by
  cases chosen <;> decide

theorem mainStep_inv (valid : Inv accepted world) (ran : mainStep accepted file outcome world = some after) : Inv accepted after := by
  have task := valid.task
  unfold mainStep at ran
  cases main : world.main with
  | starting =>
    simp only [main] at ran
    split at ran
    · cases ran
      exact valid.quiet rfl rfl rfl rfl trivial
    cases made : HydrationSink.report accepted (outcome = .succeeds) world with
    | mk =>
      obtain ⟨kept,sink,point,-⟩ := valid.report made
      have known := kept.task
      rw [point,main] at known
      simp only [made] at ran
      split at ran
      · cases ran
        exact kept.quiet rfl rfl rfl rfl known
      cases ran
      exact kept.quiet rfl rfl rfl rfl trivial
  | preparing =>
    rw [main] at task
    simp only [main] at ran
    cases outcome with
    | succeeds =>
      cases ran
      refine valid.quiet rfl rfl rfl rfl ⟨task.1.symm,?_,?_,task.2⟩
      · show world.sink.next+accepted.length = accepted.stop
        rw [task.1]
        rfl
      intro _
      rw [task.1]
      exact accepted.aligned
    | fails | cancels =>
      cases ran
      exact valid.quiet rfl rfl rfl rfl trivial
  | transferring position remaining =>
    rw [main] at task
    obtain ⟨here,left,aligned,unbroken⟩ := task
    simp only [main] at ran
    split at ran
    · split at ran <;> cases ran <;> exact valid.quiet rfl rfl rfl rfl trivial
    rename_i more
    split at ran
    · cases ran
      exact valid.quiet rfl rfl rfl rfl trivial
    cases outcome with
    | succeeds =>
      simp only at ran
      split at ran
      · rename_i chunk
        cases ran
        refine valid.quiet rfl rfl rfl rfl ⟨⟨?_,chunk,left,more,aligned more⟩,unbroken⟩
        show position+min 65536 remaining-min 65536 remaining = world.sink.next
        omega
      cases ran
      exact valid.quiet rfl rfl rfl rfl trivial
    | fails | cancels =>
      cases ran
      exact valid.quiet rfl rfl rfl rfl trivial
  | calling =>
    rw [main] at task
    simp only [main] at ran
    split at ran
    · cases ran
      exact valid.quiet rfl rfl rfl rfl trivial
    split at ran
    · cases ran
      obtain ⟨⟨position,chunk,left,more,aligned⟩,unbroken⟩ := task
      exact valid.quiet rfl rfl rfl rfl ⟨⟨position,chunk,left,more,aligned⟩,unbroken⟩
    cases ran
    exact valid.quiet rfl rfl rfl rfl task
  | joining =>
    rw [main] at task
    simp only [main] at ran
    split at ran
    · cases ran
      exact valid.quiet rfl rfl rfl rfl task
    cases ran
  | checking =>
    rw [main] at task
    simp only [main] at ran
    split at ran
    · cases ran
      exact valid.quiet rfl rfl rfl rfl trivial
    cases ran
    exact valid.quiet rfl rfl rfl rfl task
  | writing offset bytes remaining =>
    rw [main] at task
    simp only [main] at ran
    split at ran
    · cases ran
      exact valid.quiet rfl rfl rfl rfl trivial
    rename_i usable
    have open_ : world.sink.terminal = false := by
      cases closed : world.sink.terminal with
      | false => rfl
      | true => exact absurd (by rw [closed]; rfl) usable
    split at ran
    · rename_i succeeded
      cases ran
      simp only [succeeded,decide_true]
      exact valid.dataWritten open_ task.1 task.2
    rename_i failed
    cases ran
    simp only [failed,decide_false]
    exact valid.dataFailed open_ task.1 task.2 false
  | completeJoining =>
    simp only [main] at ran
    split at ran
    · split at ran <;> cases ran <;> exact valid.quiet rfl rfl rfl rfl trivial
    cases ran
  | completeChecking =>
    simp only [main] at ran
    split at ran <;> cases ran <;> exact valid.quiet rfl rfl rfl rfl trivial
  | completeLocking =>
    simp only [main] at ran
    split at ran
    · cases ran
      exact valid.quiet rfl rfl rfl rfl trivial
    cases ran
    refine ⟨valid.protocol,valid.reached,valid.within,valid.committed,fun _ => rfl,?_,trivial⟩
    intro closed
    cases closed
  | failJoining =>
    simp only [main] at ran
    split at ran
    · cases ran
      exact valid.quiet rfl rfl rfl rfl trivial
    cases ran
  | failLocking caller =>
    simp only [main] at ran
    cases closed : world.sink.terminal with
    | true =>
      simp only [closed,if_true] at ran
      cases caller <;> cases ran <;> exact valid.quiet rfl rfl rfl rfl trivial
    | false =>
      simp only [closed,false_eq_true,if_false] at ran
      cases caller <;> cases ran <;> exact valid.failed closed (failure_status _) fun _ _ => trivial
  | done =>
    simp only [main] at ran
    cases ran
  | _ =>
    simp only [main] at ran
    cases ran
    exact valid.quiet rfl rfl rfl rfl trivial

theorem Task.flags (task : Task accepted sink calls main) (next : other.next = sink.next) : Task accepted other calls main := by
  cases main with
  | starting | preparing => exact ⟨next ▸ task.1,task.2⟩
  | transferring =>
    unfold Task at task ⊢
    rwa [next]
  | calling | joining | checking | writing =>
    obtain ⟨⟨position,chunk,left,more,aligned⟩,unbroken⟩ := task
    exact ⟨⟨next ▸ position,chunk,next ▸ left,more,next ▸ aligned⟩,unbroken⟩
  | _ => trivial

theorem pumpStep_inv (valid : Inv accepted world) (ran : pumpStep accepted outcome world = some after) : Inv accepted after := by
  unfold pumpStep at ran
  cases pump : world.pump with
  | absent | ended => simp only [pump] at ran; cases ran
  | delaying =>
    simp only [pump] at ran
    cases outcome with
    | succeeds =>
      cases ran
      exact valid.quiet rfl rfl rfl rfl valid.task
    | fails | cancels =>
      simp only at ran
      split at ran <;> cases ran
      exact valid.quiet rfl rfl rfl rfl valid.task
  | awake =>
    simp only [pump] at ran
    split at ran <;> cases ran <;> exact valid.quiet rfl rfl rfl rfl valid.task
  | reporting =>
    simp only [pump] at ran
    cases made : HydrationSink.report accepted (outcome = .succeeds) world with
    | mk =>
      have kept := (valid.report made).1
      simp only [made] at ran
      split at ran <;> cases ran <;> exact kept.quiet rfl rfl rfl rfl kept.task
  | failing | cancelling =>
    simp only [pump] at ran
    cases ran
    exact valid.quiet rfl rfl rfl rfl (valid.task.flags rfl)

theorem step_inv (valid : Inv accepted before) (ran : Step accepted file before event after) : Inv accepted after := by
  unfold Step advance at ran
  cases event with
  | main => exact mainStep_inv valid ran
  | pump => exact pumpStep_inv valid ran
  | cancel =>
    cases ran
    exact valid.quiet rfl rfl rfl rfl (valid.task.flags rfl)
  | linked =>
    simp only at ran
    split at ran <;> cases ran
    exact valid.quiet rfl rfl rfl rfl (valid.task.flags rfl)

theorem reached_inv (path : Runs (Step accepted file) (initial accepted) events world) : Inv accepted world :=
  path.preserves (Inv accepted) (fun _ _ _ valid ran => step_inv valid ran) (initial_inv accepted)

theorem hydration_protocol (accepted : Accepted) (file : Bytes) (events : List Event) (world : World)
    (path : Runs (Step accepted file) (initial accepted) events world) :
    Protocol accepted world.calls ∧
    ∀ offset bytes remaining, world.main = .calling offset bytes remaining →
      invalidRange accepted world.sink offset bytes = false := by
  have valid := reached_inv path
  refine ⟨valid.protocol,?_⟩
  intro _ _ _ point
  have task := valid.task
  rw [point] at task
  exact task.1.valid

def small : Accepted :=
  ⟨⟨1,2,3,5,0,5⟩,5,0,5,rfl,rfl,rfl,by decide,by decide,by decide,by decide⟩

def wholeFile : List Event :=
  [.main .succeeds,.pump .succeeds,.main .succeeds,.pump .succeeds,.main .succeeds,.pump .succeeds,.main .succeeds,
    .pump .cancels,.main .succeeds,.main .succeeds,.main .succeeds,.main .succeeds,.main .succeeds,.main .succeeds]

def wholeFileWritten : World :=
  ⟨⟨5,true,false,true,true,false,false⟩,.ended,.stopping, [.progress 1 2 1 0 true,.progress 1 2 1 0 true,.execute 1 2 3 0 0 5 (some [7,8,9,10,11]) true]⟩

theorem hydration_protocol_example : Protocol small wholeFileWritten.calls ∧
    ∀ offset bytes remaining, wholeFileWritten.main = .calling offset bytes remaining →
      invalidRange small wholeFileWritten.sink offset bytes = false :=
  hydration_protocol small [7,8,9,10,11] wholeFile wholeFileWritten (Runs.of_follow (by decide +kernel))
end LedgeTopOps.HydrationProtocol
