import LedgeTopOps.ViewerEventCustody

namespace LedgeTopOps.ViewerEvents
open Option hiding any_eq_true
open List KeyedRows StepRuns

section
variable {w v : World} {run : Run} {action : Action}

theorem enqueue_sound (sound : Sound w) (id : Nat) (payload : String) : Sound (w.enqueueEvent id payload) := by
  unfold World.enqueueEvent
  split
  · exact sound
  rename_i absent
  have fresh : ∀ row ∈ w.rows, row.id ≠ id := find_none.mp (not_isSome_iff_eq_none.mp absent)
  have added : Keyed Row.id (w.rows++[⟨id,payload,.pending,0,w.now,none⟩]) := sound.rows.add fresh
  refine ⟨sound.ledger,added,sound.runs,sound.asked,sound.answered,sound.sent,fun other mem row is => ?_,sound.delivering,fun row mem is => ?_⟩
  · obtain ⟨held,there,agrees⟩ := sound.kept other mem row is
    exact ⟨held,mem_append_left _ there,agrees⟩
  rcases mem_snoc.mp mem with old | rfl
  · exact sound.delivered row old is
  cases is

theorem start_sound (sound : Sound w) (absent : ¬w.runs.any (·.name = name)) : Sound { w with runs := w.runs++[⟨name,.claim⟩] } := by
  have fresh : ∀ run ∈ w.runs, run.name ≠ name := fun run mem same => absent (any_eq_true.mpr ⟨run,mem,decide_eq_true same⟩)
  have added : Keyed Run.name (w.runs++[⟨name,.claim⟩]) := sound.runs.add fresh
  refine ⟨sound.ledger,sound.rows,added,sound.asked,sound.answered,fun q mem => ?_,fun other mem row is => ?_,fun other mem row is => ?_,sound.delivered⟩
  · obtain ⟨sender,there,agrees⟩ := sound.sent q mem
    exact ⟨sender,mem_append_left _ there,agrees⟩
  · rcases mem_snoc.mp mem with old | rfl
    · exact sound.kept other old row is
    · cases is
  rcases mem_snoc.mp mem with old | rfl
  · exact sound.delivering other old row is
  cases is

theorem due_found (due : w.due = some row) : row ∈ w.rows ∧ row.due w.now :=
  ⟨mem_of_find?_eq_some due,find?_some due⟩

theorem claim_sound (sound : Sound w) (found : w.run name = some run) (at_ : run.pc = .claim) : Sound (w.claimEvent name) := by
  have unposted : run.pc.posted ≠ true := by
    rw [at_]
    exact nofun
  unfold World.claimEvent
  split
  · exact goes_sound sound found nofun (fun was => absurd was unposted) nofun
  rename_i row due
  obtain ⟨mem,_⟩ := due_found due
  have updated : Sound (w.update row.id (·.claimed w.now)) :=
    update_sound sound (fun _ => ⟨rfl,rfl⟩) fun _ _ _ => nofun
  refine goes_sound updated found (fun held is => ?_) (fun was => absurd was unposted) nofun
  cases is
  exact ⟨_,mem_amend.mpr (.inr ⟨row,mem,rfl,rfl⟩),rfl,rfl⟩

theorem post_sound (sound : Sound w) (found : w.run name = some run) (at_ : run.pc = .post row) (nonce : Nat) :
    Sound ((w.send ⟨row.id,row.payload,nonce,name⟩).goes name (.waiting row)) := by
  have onward : Sound (w.goes name (.waiting row)) := onward_sound sound found (fun _ => rfl) (fun _ is => by rw [at_]; exact is) nofun
  refine ⟨onward.ledger,onward.rows,onward.runs,fun i mem => mem_append_left _ (sound.asked i mem),onward.answered,fun q mem => ?_,
    onward.kept,onward.delivering,onward.delivered⟩
  rcases mem_snoc.mp mem with old | rfl
  · exact onward.sent q old
  refine ⟨_,goes_own found,(run_found found).2,rfl,fun other is => ?_⟩
  cases is
  exact ⟨rfl,rfl⟩

theorem intake_sound (sound : Sound w) (at_ : w.intakes[place]? = some i)
    (ledger : Ledger o) (grows : Grows w.operations o) (accepted : stage = .answered true → o.fingerprint i.request.event = some i.request.body) :
    Sound { w with operations := o, intakes := w.intakes.set place { i with stage := stage } } := by
  refine ⟨ledger,sound.rows,sound.runs,fun j mem => ?_,fun j mem is => ?_,sound.sent,sound.kept,
    fun other mem row is => grows _ _ (sound.delivering other mem row is),fun row mem is => grows _ _ (sound.delivered row mem is)⟩
  · rcases mem_or_eq_of_mem_set mem with old | rfl
    · exact sound.asked j old
    · exact sound.asked i (mem_of_getElem? at_)
  rcases mem_or_eq_of_mem_set mem with old | rfl
  · exact grows _ _ (sound.answered j old is)
  exact accepted is

theorem served_sound (sound : Sound w) (at_ : w.intakes[place]? = some i) (open_ : i.stage ≠ .answered true)
    (outcome : Outcome) (fine : Bool) : Sound (w.served place i outcome fine) := by
  obtain ⟨ledger,grows,accepted⟩ := @serve_kept _ w.now fine i sound.ledger
  cases outcome with
  | returns => exact intake_sound sound at_ ledger grows fun is => accepted is open_
  | lost => exact intake_sound sound at_ ledger grows nofun
  | fails => exact intake_sound sound at_ sound.ledger (Grows.refl _) nofun

theorem responds_sound {place : Nat} (sound : Sound w) (at_ : w.intakes[place]? = some i) (stage : i.stage = .answered ok)
    (found : w.run i.request.run = some run) (waits : run.pc = .waiting row) : Sound (w.goes run.name (if ok then .deliver row else .retry row)) := by
  have mem := mem_of_getElem? at_
  obtain ⟨_,there,named,_,agrees⟩ := sound.sent i.request (sound.asked i mem)
  cases sound.runs.unique there (run_found found).1 (named.trans (run_found found).2.symm)
  obtain ⟨event,body⟩ := agrees row (by rw [waits]; rfl)
  rw [(run_found found).2]
  cases ok with
  | false => exact onward_sound sound found (fun _ => rfl) (fun _ is => by rw [waits]; exact is) nofun
  | true =>
    refine onward_sound sound found (fun _ => rfl) (fun _ is => by rw [waits]; exact is) fun other is => ?_
    cases is
    rw [event,body]
    exact sound.answered i mem stage

theorem settle_sound (sound : Sound w) (found : w.run name = some run) (settled : w.settle name run.pc = some v) : Sound v := by
  have mem := (run_found found).1
  unfold World.settle at settled
  split at settled
  · rename_i row at_
    cases settled
    have updated : Sound (w.update row.id Row.delivered) := by
      refine update_sound sound (fun _ => ⟨rfl,rfl⟩) fun held there same _ => ?_
      obtain ⟨_,here,named,payload⟩ := sound.kept run mem row (by rw [at_]; rfl)
      cases sound.rows.unique there here (same.trans named.symm)
      rw [named,payload]
      exact sound.delivering run mem row at_
    exact onward_sound updated found (fun _ => rfl) nofun nofun
  · rename_i row at_
    cases settled
    have updated : Sound (w.update row.id (·.retried w.now row.attempts)) := by
      refine update_sound sound (fun _ => ⟨rfl,rfl⟩) fun held there same is => ?_
      revert is
      unfold Row.retried
      split <;> exact nofun
    exact onward_sound updated found (fun _ => rfl) nofun nofun
  cases settled

theorem step_sound (sound : Sound w) (moved : next w action = some v) : Sound v := by
  cases action with
  | tick =>
    cases moved
    exact ⟨sound.ledger,sound.rows,sound.runs,sound.asked,sound.answered,sound.sent,sound.kept,sound.delivering,sound.delivered⟩
  | enqueue id payload =>
    cases moved
    exact enqueue_sound sound id payload
  | start =>
    obtain ⟨absent,taken⟩ := ite_none_left_eq_some.mp moved
    cases taken
    exact start_sound sound absent
  | claim =>
    obtain ⟨_,found,taken⟩ := bind_eq_some_iff.mp moved
    obtain ⟨at_,is⟩ := ite_none_right_eq_some.mp taken
    cases is
    exact claim_sound sound found at_
  | post name nonce =>
    obtain ⟨run,found,taken⟩ := bind_eq_some_iff.mp moved
    split at taken
    · cases taken
      exact post_sound sound found ‹_› nonce
    cases taken
  | arrives =>
    obtain ⟨mem,taken⟩ := ite_none_right_eq_some.mp moved
    cases taken
    refine ⟨sound.ledger,sound.rows,sound.runs,fun i there => ?_,fun i there is => ?_,sound.sent,sound.kept,sound.delivering,sound.delivered⟩
    · rcases mem_snoc.mp there with old | rfl
      · exact sound.asked i old
      · exact mem
    rcases mem_snoc.mp there with old | rfl
    · exact sound.answered i old is
    cases is
  | serve place outcome fine =>
    obtain ⟨i,at_,taken⟩ := bind_eq_some_iff.mp moved
    split at taken
    · cases taken
    rename_i unanswered
    cases taken
    exact served_sound sound at_ (unanswered true) outcome fine
  | responds place =>
    obtain ⟨i,at_,taken⟩ := bind_eq_some_iff.mp moved
    split at taken
    · rename_i ok stage
      obtain ⟨run,found,answered⟩ := bind_eq_some_iff.mp taken
      split at answered
      · rename_i row waits
        cases answered
        exact responds_sound sound at_ stage found waits
      cases answered
    cases taken
  | givesUp name =>
    obtain ⟨run,found,taken⟩ := bind_eq_some_iff.mp moved
    split at taken
    · rename_i row at_
      cases taken
      exact onward_sound sound found (fun _ => rfl) (fun _ is => by rw [at_]; exact is) nofun
    · rename_i row at_
      cases taken
      exact onward_sound sound found (fun _ => rfl) (fun _ is => by rw [at_]; exact is) nofun
    · rename_i row at_
      cases taken
      exact onward_sound sound found (fun _ => rfl) (fun _ is => by rw [at_]; exact is) nofun
    cases taken
  | settle =>
    obtain ⟨_,found,taken⟩ := bind_eq_some_iff.mp moved
    exact settle_sound sound found taken
  | crash name =>
    obtain ⟨_,found,rfl⟩ := map_eq_some_iff.mp moved
    have onward : Sound (w.goes name .ended) := onward_sound sound found (fun _ => rfl) nofun nofun
    exact ⟨onward.ledger,onward.rows,onward.runs,onward.asked,onward.answered,onward.sent,onward.kept,onward.delivering,onward.delivered⟩
  | prune =>
    cases moved
    exact ⟨⟨sound.ledger.events,sound.ledger.notices,sound.ledger.audits⟩,sound.rows,sound.runs,sound.asked,sound.answered,sound.sent,sound.kept,
      sound.delivering,sound.delivered⟩

theorem initial_sound : Sound initial :=
  ⟨⟨nodup_nil,rfl,rfl⟩,nodup_nil,nodup_nil,fun _ mem => (not_mem_nil mem).elim,fun _ mem => (not_mem_nil mem).elim,
    fun _ mem => (not_mem_nil mem).elim,fun _ mem => (not_mem_nil mem).elim,fun _ mem => (not_mem_nil mem).elim,
    fun _ mem => (not_mem_nil mem).elim⟩
end

section
variable {w v : World} {run : Run} {action : Action}

theorem working_iff : w.working row ↔ ∃ run ∈ w.runs, ∃ own, run.pc.row = some own ∧ own.id = row.id ∧ own.attempts = row.attempts := by
  simp only [World.working,any_eq_true,Option.any_eq_true,Bool.and_eq_true,decide_eq_true_eq]

theorem working_goes (sound : Sound w) (found : w.run name = some run) (keeps : ∀ own, run.pc.row = some own → pc.row = some own)
    (working : w.working row) : (w.goes name pc).working row := by
  obtain ⟨worker,there,own,holds,id,attempts⟩ := working_iff.mp working
  refine working_iff.mpr ?_
  by_cases same : worker.name = name
  · cases sound.runs.unique there (run_found found).1 (same.trans (run_found found).2.symm)
    exact ⟨_,goes_own found,own,keeps own holds,id,attempts⟩
  exact ⟨worker,goes_other there same,own,holds,id,attempts⟩

theorem onward_held (sound : Sound w) (held : Held w) (found : w.run name = some run) (same : pc.row = run.pc.row) : Held (w.goes name pc) where
  pending := held.pending
  leased row mem is := (held.leased row mem is).imp_left (working_goes sound found fun _ holds => same.trans holds)
  claims := held.claims

theorem Stays.still (rows : v.rows = w.rows) (grows : Grows w.operations v.operations) : Stays w v :=
  ⟨grows,fun row mem _ => ⟨row,rows ▸ mem,rfl,rfl⟩⟩

theorem claim_held (sound : Sound w) (held : Held w) (found : w.run name = some run) (at_ : run.pc = .claim)
    (intime : timely w (.claim name)) : Held (w.claimEvent name) ∧ Stays w (w.claimEvent name) := by
  unfold World.claimEvent
  split
  · exact ⟨onward_held sound held found (by rw [at_]; rfl),.still rfl (Grows.refl _)⟩
  rename_i row due
  obtain ⟨mem,ready⟩ := due_found due
  have waiting : row.status = .pending ∨ row.status = .leased := by
    unfold Row.due at ready
    simp only [Bool.and_eq_true,Bool.or_eq_true,decide_eq_true_eq] at ready
    exact ready.2.imp_right And.left
  have spare : row.status = .pending ∨ row.attempts < maxAttempts ∨ w.working row = false := by
    have all : w.due.all (fun row => row.status = .pending || row.attempts < maxAttempts || !w.working row) := intime
    rw [due,all_some,Bool.or_eq_true,Bool.or_eq_true,decide_eq_true_eq,decide_eq_true_eq,Bool.not_eq_true'] at all
    exact or_assoc.mp all
  have taken : row.attempts + 1 ≤ maxAttempts ∨ row.id ∈ w.crashed := by
    rcases spare with pending | fewer | idle
    · exact .inl (held.pending row mem pending)
    · exact .inl fewer
    rcases waiting with pending | leased
    · exact .inl (held.pending row mem pending)
    rcases held.leased row mem leased with works | crashed
    · rw [idle] at works
      cases works
    exact .inr crashed
  refine ⟨⟨fun other there is => ?_,fun other there is => ?_,fun other there => ?_⟩,⟨Grows.refl _,fun other there final => ?_⟩⟩
  · rcases mem_amend.mp there with ⟨old,_⟩ | ⟨old,_,_,rfl⟩
    · exact held.pending other old is
    · cases is
  · rcases mem_amend.mp there with ⟨old,_⟩ | ⟨old,before,named,rfl⟩
    · refine (held.leased other old is).imp_left fun works => ?_
      refine working_goes (w := w.update row.id (·.claimed w.now)) ?_ found (fun own holds => ?_) works
      · exact update_sound sound (fun _ => ⟨rfl,rfl⟩) fun _ _ _ => nofun
      rw [at_] at holds
      cases holds
    · cases sound.rows.unique before mem named
      exact .inl (working_iff.mpr ⟨_,goes_own (w := w.update row.id (·.claimed w.now)) found,_,rfl,rfl,rfl⟩)
  · rcases mem_amend.mp there with ⟨old,_⟩ | ⟨old,before,named,rfl⟩
    · exact held.claims other old
    · cases sound.rows.unique before mem named
      exact taken
  refine ⟨other,mem_amend.mpr (.inl ⟨there,fun same => ?_⟩),rfl,rfl⟩
  cases sound.rows.unique there mem same
  rcases waiting with is | is
  · rw [is] at final
    cases final
  rw [is] at final
  cases final

theorem finish_held (sound : Sound w) (held : Held w) (found : w.run name = some run) (at_ : run.pc.row = some row)
    (stands : w.stands row) (same : ∀ old : Row, (change old).id = old.id ∧ (change old).attempts = old.attempts)
    (done : ∀ old : Row, (change old).status ≠ .leased) (again : ∀ old : Row, (change old).status = .pending → row.attempts < maxAttempts) :
    Held ((w.update row.id change).goes name .ended) ∧ Stays w ((w.update row.id change).goes name .ended) := by
  obtain ⟨_,here,standing⟩ := (Option.any_eq_true _ _).mp stands
  obtain ⟨mem,named⟩ := find_some here
  simp only [Bool.and_eq_true,decide_eq_true_eq] at standing
  refine ⟨⟨fun other there is => ?_,fun other there is => ?_,fun other there => ?_⟩,⟨Grows.refl _,fun other there final => ?_⟩⟩
  · rcases mem_amend.mp there with ⟨old,_⟩ | ⟨old,before,own,rfl⟩
    · exact held.pending other old is
    · cases sound.rows.unique before mem (own.trans named.symm)
      rw [(same _).2,standing.2]
      exact again _ is
  · rcases mem_amend.mp there with ⟨old,apart⟩ | ⟨old,_,_,rfl⟩
    · refine (held.leased other old is).imp_left fun works => ?_
      obtain ⟨worker,there,own,holds,id,attempts⟩ := working_iff.mp works
      refine working_iff.mpr ⟨worker,goes_other (w := w.update row.id change) there fun mine => ?_,own,holds,id,attempts⟩
      cases sound.runs.unique there (run_found found).1 (mine.trans (run_found found).2.symm)
      cases at_.symm.trans holds
      exact apart id.symm
    · exact absurd is (done old)
  · rcases mem_amend.mp there with ⟨old,_⟩ | ⟨old,before,_,rfl⟩
    · exact held.claims other old
    · rw [(same old).1,(same old).2]
      exact held.claims old before
  refine ⟨other,mem_amend.mpr (.inl ⟨there,fun own => ?_⟩),rfl,rfl⟩
  cases sound.rows.unique there mem (own.trans named.symm)
  rw [standing.1] at final
  cases final

theorem settle_held (sound : Sound w) (held : Held w) (found : w.run name = some run) (settled : w.settle name run.pc = some v)
    (intime : timely w (.settle name)) : Held v ∧ Stays w v := by
  have stands : ∀ row, run.pc.row = some row → w.stands row := fun row at_ => by
    have all : ((w.run name).bind fun run => run.pc.row).all (fun row => w.stands row) := intime
    rw [found,bind_some,at_,all_some] at all
    exact all
  unfold World.settle at settled
  split at settled
  · rename_i row at_
    cases settled
    have own : run.pc.row = some row := by rw [at_]; rfl
    exact finish_held sound held found own (stands row own) (fun _ => ⟨rfl,rfl⟩) (fun _ => nofun) (fun _ => nofun)
  · rename_i row at_
    cases settled
    have own : run.pc.row = some row := by rw [at_]; rfl
    refine finish_held sound held found own (stands row own) (fun _ => ⟨rfl,rfl⟩) (fun old => ?_) (fun old => ?_)
    · unfold Row.retried
      split <;> exact nofun
    unfold Row.retried
    split
    · exact nofun
    exact fun _ => Nat.lt_of_not_le ‹_›
  cases settled

theorem step_held (sound : Sound w) (held : Held w) (intime : timely w action) (moved : next w action = some v) : Held v ∧ Stays w v := by
  cases action with
  | tick =>
    cases moved
    exact ⟨⟨held.pending,held.leased,held.claims⟩,.still rfl (Grows.refl _)⟩
  | enqueue =>
    cases moved
    unfold World.enqueueEvent
    split
    · exact ⟨held,.still rfl (Grows.refl _)⟩
    refine ⟨⟨fun row mem is => ?_,fun row mem is => ?_,fun row mem => ?_⟩, ⟨Grows.refl _,fun row mem _ => ⟨row,mem_append_left _ mem,rfl,rfl⟩⟩⟩
    · rcases mem_snoc.mp mem with old | rfl
      · exact held.pending row old is
      · exact Nat.zero_lt_succ 11
    · rcases mem_snoc.mp mem with old | rfl
      · exact held.leased row old is
      · cases is
    rcases mem_snoc.mp mem with old | rfl
    · exact held.claims row old
    exact .inl (Nat.zero_le _)
  | start =>
    obtain ⟨_,taken⟩ := ite_none_left_eq_some.mp moved
    cases taken
    refine ⟨⟨held.pending,fun row mem is => (held.leased row mem is).imp_left fun works => ?_,held.claims⟩,.still rfl (Grows.refl _)⟩
    obtain ⟨worker,there,holds⟩ := working_iff.mp works
    exact working_iff.mpr ⟨worker,mem_append_left _ there,holds⟩
  | claim =>
    obtain ⟨_,found,taken⟩ := bind_eq_some_iff.mp moved
    obtain ⟨at_,is⟩ := ite_none_right_eq_some.mp taken
    cases is
    exact claim_held sound held found at_ intime
  | post name nonce =>
    obtain ⟨run,found,taken⟩ := bind_eq_some_iff.mp moved
    split at taken
    · rename_i row at_
      cases taken
      have onward : Held (w.goes name (.waiting row)) := onward_held sound held found (by rw [at_]; rfl)
      exact ⟨⟨onward.pending,onward.leased,onward.claims⟩,.still rfl (Grows.refl _)⟩
    cases taken
  | arrives =>
    obtain ⟨_,taken⟩ := ite_none_right_eq_some.mp moved
    cases taken
    exact ⟨⟨held.pending,held.leased,held.claims⟩,.still rfl (Grows.refl _)⟩
  | serve _ outcome fine =>
    obtain ⟨i,_,taken⟩ := bind_eq_some_iff.mp moved
    split at taken
    · cases taken
    cases taken
    obtain ⟨_,grows,_⟩ := @serve_kept _ w.now fine i sound.ledger
    cases outcome with
    | returns | lost => exact ⟨⟨held.pending,held.leased,held.claims⟩,.still rfl grows⟩
    | fails => exact ⟨⟨held.pending,held.leased,held.claims⟩,.still rfl (Grows.refl _)⟩
  | responds place =>
    obtain ⟨i,_,taken⟩ := bind_eq_some_iff.mp moved
    split at taken
    · rename_i ok stage
      obtain ⟨run,found,answered⟩ := bind_eq_some_iff.mp taken
      split at answered
      · rename_i row waits
        cases answered
        rw [(run_found found).2]
        refine ⟨onward_held sound held found ?_,.still rfl (Grows.refl _)⟩
        rw [waits]
        cases ok <;> rfl
      cases answered
    cases taken
  | givesUp name =>
    obtain ⟨run,found,taken⟩ := bind_eq_some_iff.mp moved
    split at taken
    · rename_i row at_
      cases taken
      exact ⟨onward_held sound held found (by rw [at_]; rfl),.still rfl (Grows.refl _)⟩
    · rename_i row at_
      cases taken
      exact ⟨onward_held sound held found (by rw [at_]; rfl),.still rfl (Grows.refl _)⟩
    · rename_i row at_
      cases taken
      exact ⟨onward_held sound held found (by rw [at_]; rfl),.still rfl (Grows.refl _)⟩
    cases taken
  | settle =>
    obtain ⟨_,found,taken⟩ := bind_eq_some_iff.mp moved
    exact settle_held sound held found taken intime
  | crash name =>
    obtain ⟨_,found,rfl⟩ := map_eq_some_iff.mp moved
    refine ⟨⟨held.pending,fun row mem is => ?_,fun row mem => (held.claims row mem).imp_right (mem_append_right _)⟩,.still rfl (Grows.refl _)⟩
    rcases held.leased row mem is with works | crashed
    · obtain ⟨worker,there,own,holds,id,attempts⟩ := working_iff.mp works
      by_cases same : worker.name = name
      · right
        cases sound.runs.unique there (run_found found).1 (same.trans (run_found found).2.symm)
        rw [holds,map_some,id]
        exact .head _
      exact .inl (working_iff.mpr ⟨worker,goes_other there same,own,holds,id,attempts⟩)
    exact .inr (mem_append_right _ crashed)
  | prune =>
    cases moved
    exact ⟨⟨held.pending,held.leased,held.claims⟩,.still rfl fun _ _ known => known⟩
end

section
variable {w v : World} {action : Action} {actions : List Action}

def step (w : World) (action : Action) (v : World) : Prop := next w action = some v

abbrev Timely (w : World) (action : Action) : Prop := timely w action = true

theorem run_held (run : Runs (Guarded step Timely) initial actions w) : Sound w ∧ Held w :=
  run.preserves (fun w => Sound w ∧ Held w)
    (fun _ _ _ kept moved => ⟨step_sound kept.1 moved.1,(step_held kept.1 kept.2 moved.2 moved.1).1⟩)
    ⟨initial_sound,fun _ mem => (not_mem_nil mem).elim,fun _ mem => (not_mem_nil mem).elim, fun _ mem => (not_mem_nil mem).elim⟩

theorem delivered_once (run : Runs (Guarded step Timely) initial actions w) : Delivered w ∧ ∀ action v, Guarded step Timely w action v → Stays w v := by
  obtain ⟨sound,held⟩ := run_held run
  exact ⟨⟨sound.ledger.once,sound.delivered,held.claims⟩,fun action v moved => (step_held sound held moved.2 moved.1).2⟩
end

def delivering (name nonce : Nat) : List Action :=
  [.start name,.claim name,.post name nonce,.arrives ⟨7,"ready",nonce,name⟩,.serve 0 .returns true,.serve 0 .returns true,.serve 0 .returns true,
    .responds 0,.settle name]

def deliveredWorld : World := (follow next initial (.enqueue 7 "ready" :: delivering 0 1)).getD initial

theorem delivered_once_example : deliveredWorld.rows.map Row.status = [.delivered] ∧ deliveredWorld.operations.notices = [7] ∧ Delivered deliveredWorld :=
  have run : Runs (Guarded step Timely) initial (.enqueue 7 "ready" :: delivering 0 1) deliveredWorld := Runs.of_checked rfl
  ⟨rfl,rfl,(delivered_once run).1⟩

def suspended : List Action := [.enqueue 7 "ready",.start 0,.claim 0,.tick 60000]
def outlived : List Action := suspended++delivering 1 1++[.givesUp 0]

def exhausted : List Action := suspended ++
  (range 11).flatMap (fun k => [.start (k + 1),.claim (k + 1),.givesUp (k + 1),.settle (k + 1),.tick 3600000]) ++
  [.givesUp 0,.settle 0,.tick 3600000,.start 12,.claim 12]

theorem delivery_undone : (∃ w v, follow next initial outlived = some w ∧ step w (.settle 0) v ∧ ¬Stays w v) ∧
    (∃ w, follow next initial exhausted = some w ∧ w.rows.map Row.attempts = [13] ∧ w.crashed = [] ∧ ¬Delivered w) := by
  refine ⟨⟨_,_,rfl,rfl,fun stays => ?_⟩,⟨_,rfl,rfl,rfl,fun delivered => ?_⟩⟩
  · obtain ⟨_,member,_,same⟩ := stays.final _ (.head _) rfl
    cases mem_singleton.mp member
    cases same
  rcases delivered.claims _ (.head _) with few | crashed
  · exact absurd few (by decide)
  cases crashed
end LedgeTopOps.ViewerEvents
