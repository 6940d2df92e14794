import LedgeTopOps.ProcessingNotices
import LedgeTopOps.FlowLists

namespace LedgeTopOps.ProcessingNotices
open FlowLists Bool KeyedRows
open Option (any_some bind_eq_some_iff map_eq_some_iff)
open List hiding after
open StepRuns

def Step (s : State) (action : Action) (t : State) : Prop := next s action = some t
def idle (now : Nat) : State := ⟨⟨now,[],[]⟩,[]⟩

-- No row has more than three attempts, and no event more than three mails.
structure Bounded (s : State) : Prop where
  attempts : ∀ row ∈ s.world.rows, row.attempts ≤ maxAttempts
  mails : ∀ name, s.world.mails.countP (·.event = name) ≤ maxAttempts

-- A row sent, suppressed or failed keeps its status, and no worker leaves a row pending or failed whose mail was
-- accepted in the turn of another.
structure Final (s : State) : Prop where
  settled : ∀ (action : Action) (t : State) (name : Nat) (row : Row), Step s action t → s.world.row name = some row →
    row.status.final = true → ∃ after, t.world.row name = some after ∧ after.status = row.status
  delivered : ∀ (worker : Nat) (reply : Reply) (t : State) (name : Nat) (after : Row), Step s (.reply worker reply) t →
    t.world.row name = some after → t.world.row name ≠ s.world.row name → after.status = .pending ∨ after.status = .failed →
    ∀ mail ∈ s.world.mails, mail.event = name → mail.accepted = true → mail.worker = worker

section
variable {w : World}

theorem row_update (same : ∀ row, (change row).name = row.name) :
    (w.update other change).row name = (w.row name).map fun row => if row.name = other then change row else row :=
  find_amend same

theorem row_name (found : w.row name = some row) : row.name = name := (find_some found).2

theorem row_elsewhere (same : ∀ row, (change row).name = row.name) (apart : name ≠ other) : (w.update other change).row name = w.row name := by
  rw [row_update same]
  cases found : w.row name with
  | none => rfl
  | some => exact congrArg some (if_neg fun here => apart ((row_name found).symm.trans here))

theorem row_here (same : ∀ row, (change row).name = row.name) (found : w.row name = some row) : (w.update name change).row name = some (change row) := by
  rw [row_update same,found]
  exact congrArg some (if_pos (row_name found))

theorem claim_name (now : Nat) (row : Row) : (if row.due now then row.claimed now else row).name = row.name := by
  split <;> rfl

theorem row_enqueue (event : Event) (found : w.row name = some row) : (w.enqueue event).row name = some row := by
  unfold World.enqueue
  split
  · exact found
  exact find_append found
end

def World.spent (w : World) (name : Nat) : Nat := ((w.row name).map (·.attempts)).getD 0
def owing (name : Nat) (pc : Pc) : Int := if pc.owes = some name then 1 else 0

structure Counted (s : State) : Prop where
  attempts : ∀ row ∈ s.world.rows, row.attempts ≤ maxAttempts
  covered : ∀ name, (s.world.mails.countP (·.event = name) : Int) + total (owing name) s.flows ≤ s.world.spent name

section
variable {s : State} {w : World}

theorem owing_nonneg (name : Nat) (pc : Pc) : 0 ≤ owing name pc := by
  unfold owing
  split <;> decide

theorem spent_update (same : ∀ row, (change row).name = row.name) (attempts : ∀ row, (change row).attempts = row.attempts) :
    (w.update other change).spent name = w.spent name := by
  unfold World.spent
  rw [row_update same,Option.map_map]
  cases w.row name with
  | none => rfl
  | some =>
    dsimp only [Option.map_some,Function.comp]
    split
    · rw [attempts]
    rfl

theorem attempts_update (attempts : ∀ row, (change row).attempts = row.attempts) (bounded : ∀ row ∈ w.rows, row.attempts ≤ maxAttempts) :
    ∀ row ∈ (w.update other change).rows, row.attempts ≤ maxAttempts := by
  intro row mem
  rcases mem_amend.mp mem with ⟨old,_⟩ | ⟨old,there,_,rfl⟩
  · exact bounded row old
  rw [attempts]
  exact bounded old there

theorem spent_le (bounded : ∀ row ∈ w.rows, row.attempts ≤ maxAttempts) : w.spent name ≤ maxAttempts := by
  unfold World.spent
  cases found : w.row name with
  | none => exact Nat.zero_le _
  | some row => exact bounded row (find_some found).1

theorem Counted.bounded (counted : Counted s) : Bounded s := by
  refine ⟨counted.attempts,fun name => ?_⟩
  have covered := counted.covered name
  have least := total_nonneg (owing name) fun pc (_ : pc ∈ s.flows) => owing_nonneg name pc
  have most : s.world.spent name ≤ maxAttempts := spent_le counted.attempts
  omega

theorem claim_attempts (bounded : ∀ row ∈ w.rows, row.attempts ≤ maxAttempts) : ∀ row ∈ (w.claim other).rows, row.attempts ≤ maxAttempts := by
  intro row mem
  rcases mem_amend.mp mem with ⟨old,_⟩ | ⟨old,there,_,rfl⟩
  · exact bounded row old
  split
  · rename_i due
    exact of_decide_eq_true (and_eq_true_iff.mp due).1
  exact bounded old there

theorem claim_elsewhere (apart : name ≠ other) : (w.claim other).row name = w.row name := row_elsewhere (claim_name w.now) apart

theorem claim_lost (lost : w.claimable name = false) : (w.claim name).row name = w.row name := by
  cases found : w.row name with
  | none =>
    show (w.update name _).row name = none
    rw [row_update (claim_name w.now),found]
    rfl
  | some row =>
    have undue : row.due w.now = false := by simpa only [World.claimable,found,any_some] using lost
    have here : (w.claim name).row name = some _ := row_here (claim_name w.now) found
    rw [here,undue]
    rfl

theorem claim_taken (taken : w.claimable name) : ∃ row, w.row name = some row ∧ row.due w.now ∧ (w.claim name).row name = some (row.claimed w.now) := by
  cases found : w.row name with
  | none =>
    rw [World.claimable,found] at taken
    cases taken
  | some row =>
    have due : row.due w.now := by simpa only [World.claimable,found,any_some] using taken
    have here : (w.claim name).row name = some _ := row_here (claim_name w.now) found
    exact ⟨row,rfl,due,by rw [here,if_pos due]⟩

theorem claim_spent (name other : Nat) : ((w.claim other).spent name : Int) = w.spent name + if w.claimable other && name = other then 1 else 0 := by
  by_cases here : name = other
  · subst here
    cases claimable : w.claimable name with
    | false =>
      unfold World.spent
      rw [claim_lost claimable]
      simp
    | true =>
      obtain ⟨_,found,_,after⟩ := claim_taken claimable
      unfold World.spent
      rw [after,found]
      simp [Row.claimed]
  unfold World.spent
  rw [claim_elsewhere here]
  simp [here]

theorem spent_enqueue (event : Event) : (w.enqueue event).spent name = w.spent name := by
  unfold World.spent
  cases found : w.row name with
  | some => rw [row_enqueue event found]
  | none =>
    unfold World.enqueue
    split
    · rw [found]
    cases after : World.row _ name with
    | none => rfl
    | some row =>
      obtain ⟨mem,named⟩ := find_some after
      rcases mem_snoc.mp mem with old | rfl
      · exact absurd named (find_none.mp found row old)
      rfl

theorem owing_none (free : pc.owes = none) (name : Nat) : owing name pc = 0 := by
  rw [owing,free]
  exact if_neg nofun

theorem advance_owes (processed : Nat) : (advance processed).owes = none := by
  unfold advance
  split <;> rfl

theorem advance_turn (processed : Nat) : (advance processed).turn = none := by
  unfold advance
  split <;> rfl

theorem Counted.moved (counted : Counted s) (here : s.flows[worker]? = some pc) (attempts : ∀ row ∈ w.rows, row.attempts ≤ maxAttempts)
    (balance : ∀ name, (w.mails.countP (·.event = name) : Int) + owing name after - owing name pc - w.spent name ≤
      s.world.mails.countP (·.event = name) - s.world.spent name) : Counted ⟨w,s.flows.set worker after⟩ := by
  refine ⟨attempts,fun name => ?_⟩
  have covered := counted.covered name
  have change := balance name
  dsimp only
  rw [total_set (owing name) here]
  omega
end

inductive Effect (w v : World) (worker : Nat) (pc after : Pc) : Prop where
  | same (still : v = w) (turn : after.turn = none ∨ after.turn = pc.turn) (owes : after.owes = none ∨ after.owes = pc.owes)
  | taken (processed : Nat) (read : Row) (claimable : w.claimable read.name = true) (becomes : v = w.claim read.name)
      (place : pc = .claim processed read) (turn : after.turn = some read.name)
  | lost (read : Row) (claimable : w.claimable read.name = false) (becomes : v = w.claim read.name) (turn : after.turn = none)
      (owes : after.owes = none)
  | wrote (name : Nat) (change : Row → Row) (named : ∀ row, (change row).name = row.name) (attempts : ∀ row, (change row).attempts = row.attempts)
      (becomes : v = w.update name change) (held : pc.turn = some name) (turn : after.turn = none) (owes : after.owes = none)
  | mailed (mail : Mail) (by_worker : mail.worker = worker) (becomes : v = { w with mails := mail :: w.mails }) (held : pc.turn = some mail.event)
      (keeps : after.turn = some mail.event) (owed : pc.owes = some mail.event) (paid : after.owes = none)

theorem call_effect (ran : pc.call w worker reply = some (v,after)) : Effect w v worker pc after := by
  cases pc with
  | select =>
    cases reply with
    | ok =>
      cases ran
      refine .same rfl (.inl ?_) (.inl ?_)
      all_goals split <;> rfl
    | _ => cases ran
  | claim processed read =>
    cases reply with
    | ok =>
      cases ran
      cases claimable : w.claimable read.name with
      | true => exact .taken processed read claimable rfl rfl rfl
      | false => exact .lost read claimable rfl rfl rfl
    | _ => cases ran
  | recipient =>
    cases reply with
    | address found =>
      cases ran
      cases found with
      | none => exact .same rfl (.inr rfl) (.inl rfl)
      | some => exact .same rfl (.inr rfl) (.inr rfl)
    | ok | mail | raised => cases ran
  | suppress _ read =>
    cases reply with
    | ok => cases ran; exact .wrote read.name Row.suppressed (fun _ => rfl) (fun _ => rfl) rfl rfl (advance_turn _) (advance_owes _)
    | _ => cases ran
  | send _ _ address =>
    cases reply with
    | mail result => cases ran; cases result <;> exact .mailed _ rfl rfl rfl rfl rfl rfl
    | _ => cases ran
  | sent _ read =>
    cases reply with
    | ok => cases ran; exact .wrote read.name Row.sent (fun _ => rfl) (fun _ => rfl) rfl rfl (advance_turn _) (advance_owes _)
    | _ => cases ran
  | refused _ read =>
    cases reply with
    | ok =>
      cases ran
      refine .wrote read.name (·.refused w.now (read.attempts + 1)) (fun _ => rfl) (fun _ => rfl) rfl rfl ?_ ?_
      · split
        · rfl
        · exact advance_turn _
      split
      · rfl
      exact advance_owes _
    | _ => cases ran
  | alert =>
    cases reply with
    | ok => cases ran; exact .same rfl (.inl (advance_turn _)) (.inl (advance_owes _))
    | raised => cases ran; exact .same rfl (.inl rfl) (.inl rfl)
    | address | mail => cases ran
  | halted => cases ran

theorem owing_le (free : after.owes = none ∨ after.owes = pc.owes) (name : Nat) : owing name after ≤ owing name pc := by
  rcases free with none | same
  · rw [owing_none none]
    exact owing_nonneg name pc
  exact Int.le_of_eq (by rw [owing,owing,same])

theorem owes_turn {pc : Pc} (owes : pc.owes = some name) : pc.turn = some name := by
  cases pc <;> first | exact owes | cases owes

theorem effect_counted (counted : Counted s) (here : s.flows[worker]? = some pc)
    (effect : Effect s.world v worker pc after) : Counted ⟨v,s.flows.set worker after⟩ := by
  cases effect with
  | same still _ owes =>
    subst still
    refine counted.moved here counted.attempts fun name => ?_
    have less := owing_le owes name
    omega
  | taken processed read claimable becomes place turn =>
    subst becomes
    refine counted.moved here (claim_attempts counted.attempts) fun name => ?_
    have more := claim_spent (w := s.world) name read.name
    have before : owing name pc = 0 := owing_none (by rw [place]; rfl) name
    have most : owing name after ≤ if name = read.name then 1 else 0 := by
      unfold owing
      split
      · rename_i owes
        rw [owes_turn owes] at turn
        cases turn
        exact Int.le_of_eq (if_pos rfl).symm
      split <;> decide
    rw [claimable] at more
    have mails : (s.world.claim read.name).mails = s.world.mails := rfl
    rw [mails]
    simp only [Bool.true_and,decide_eq_true_eq] at more
    omega
  | lost read claimable becomes _ owes =>
    subst becomes
    refine counted.moved here (claim_attempts counted.attempts) fun name => ?_
    have same := claim_spent (w := s.world) name read.name
    rw [claimable] at same
    have mails : (s.world.claim read.name).mails = s.world.mails := rfl
    have least := owing_nonneg name pc
    rw [mails,owing_none owes]
    omega
  | wrote other change named attempts becomes _ _ owes =>
    subst becomes
    refine counted.moved here (attempts_update attempts counted.attempts) fun name => ?_
    have mails : (s.world.update other change).mails = s.world.mails := rfl
    have least := owing_nonneg name pc
    rw [mails,owing_none owes,spent_update named attempts]
    omega
  | mailed mail _ becomes _ _ owed paid =>
    subst becomes
    refine counted.moved here counted.attempts fun name => ?_
    have spent : World.spent { s.world with mails := mail :: s.world.mails } name = s.world.spent name := rfl
    rw [owing_none paid,spent,owing,owed]
    rw [countP_cons]
    by_cases same : mail.event = name
    · simp [same]
    simp [same]

theorem next_counted (counted : Counted s) (moved : next s action = some t) : Counted t := by
  cases action with
  | enqueue event =>
    cases moved
    refine ⟨fun row mem => ?_,fun name => ?_⟩
    · dsimp only [World.enqueue] at mem
      split at mem
      · exact counted.attempts row mem
      rcases mem_snoc.mp mem with old | rfl
      · exact counted.attempts row old
      exact Nat.zero_le _
    have covered := counted.covered name
    have mails : (s.world.enqueue event).mails = s.world.mails := by unfold World.enqueue; split <;> rfl
    rw [spent_enqueue,mails]
    exact covered
  | start =>
    cases moved
    refine ⟨counted.attempts,fun name => ?_⟩
    have covered := counted.covered name
    simpa [owing_none (show (Pc.select 0).owes = none from rfl)] using covered
  | crash worker =>
    cases moved
    cases here : s.flows[worker]? with
    | none =>
      rw [set_eq_of_length_le (List.getElem?_eq_none_iff.mp here)]
      exact counted
    | some pc =>
      refine counted.moved here counted.attempts fun name => ?_
      have least := owing_nonneg name pc
      rw [owing_none (show Pc.halted.owes = none from rfl)]
      omega
  | tick => cases moved; exact ⟨counted.attempts,counted.covered⟩
  | reply =>
    obtain ⟨_,here,ran⟩ := bind_eq_some_iff.mp moved
    obtain ⟨⟨v,_⟩,called,same⟩ := map_eq_some_iff.mp ran
    cases same
    exact effect_counted counted here (call_effect called)

structure Sound (s : State) : Prop where
  processing : ∀ (worker : Nat) (pc : Pc) (name : Nat), s.flows[worker]? = some pc → pc.turn = some name →
    ∃ row, s.world.row name = some row ∧ row.status = .processing
  single : ∀ (worker other : Nat) (pc rival : Pc) (name : Nat), s.flows[worker]? = some pc → s.flows[other]? = some rival →
    pc.turn = some name → rival.turn = some name → other = worker
  own : ∀ (worker : Nat) (pc : Pc) (name : Nat), s.flows[worker]? = some pc → pc.turn = some name →
    ∀ mail ∈ s.world.mails, mail.event = name → mail.accepted = true → mail.worker = worker

section
variable {s t : State} {v : World} {worker : Nat} {pc after : Pc}

section
variable (sound : Sound s) (here : s.flows[worker]? = some pc)
include sound here

theorem Sound.moved (rows : ∀ name row, pc.turn ≠ some name → s.world.row name = some row → row.status = .processing →
      ∃ kept, v.row name = some kept ∧ kept.status = .processing)
    (mails : ∀ mail ∈ v.mails, mail ∈ s.world.mails ∨ (mail.worker = worker ∧ pc.turn = some mail.event))
    (mine : ∀ name, after.turn = some name → (∃ row, v.row name = some row ∧ row.status = .processing) ∧
      (∀ (other : Nat) (rival : Pc), other ≠ worker → s.flows[other]? = some rival → rival.turn ≠ some name) ∧
      ∀ mail ∈ v.mails, mail.event = name → mail.accepted → mail.worker = worker) : Sound ⟨v,s.flows.set worker after⟩ := by
  have place : ∀ {other : Nat} {rival : Pc}, (s.flows.set worker after)[other]? = some rival →
      (other = worker ∧ rival = after) ∨ (other ≠ worker ∧ s.flows[other]? = some rival) := moved_get
  have apart : ∀ {other : Nat} {rival : Pc} {name : Nat}, other ≠ worker → s.flows[other]? = some rival → rival.turn = some name →
      pc.turn ≠ some name := fun differs found turn held => differs (sound.single worker _ pc _ _ here found held turn)
  refine ⟨fun other rival name found turn => ?_,fun first second left right name one two hold held => ?_,
    fun other rival name found turn mail mem event accepted => ?_⟩
  · rcases place found with ⟨rfl,rfl⟩ | ⟨differs,found⟩
    · exact (mine name turn).1
    · obtain ⟨row,is,processing⟩ := sound.processing other rival name found turn
      exact rows name row (apart differs found turn) is processing
  · rcases place one with ⟨rfl,rfl⟩ | ⟨differs,before⟩
    · rcases place two with ⟨rfl,rfl⟩ | ⟨other,rival⟩
      · rfl
      · exact absurd held ((mine name hold).2.1 second right other rival)
    · rcases place two with ⟨rfl,rfl⟩ | ⟨other,rival⟩
      · exact absurd hold ((mine name held).2.1 first left differs before)
      · exact sound.single first second left right name before rival hold held
  rcases place found with ⟨rfl,rfl⟩ | ⟨differs,found⟩
  · exact (mine name turn).2.2 mail mem event accepted
  · rcases mails mail mem with old | ⟨_,held⟩
    · exact sound.own other rival name found turn mail old event accepted
    · rw [event] at held
      exact absurd held (apart differs found turn)

theorem Sound.kept (held : pc.turn = some name) : (∃ row, s.world.row name = some row ∧ row.status = .processing) ∧
      (∀ (other : Nat) (rival : Pc), other ≠ worker → s.flows[other]? = some rival → rival.turn ≠ some name) ∧
      ∀ mail ∈ s.world.mails, mail.event = name → mail.accepted → mail.worker = worker :=
  ⟨sound.processing worker pc name here held, fun other rival differs found turn => differs (sound.single worker other pc rival name here found held turn),
    sound.own worker pc name here held⟩

theorem effect_sound (lone : pc.alone s) (effect : Effect s.world v worker pc after) : Sound ⟨v,s.flows.set worker after⟩ := by
  cases effect with
  | same still turn =>
    subst still
    refine sound.moved here (fun name row _ is processing => ⟨row,is,processing⟩) (fun mail mem => .inl mem) fun name held => ?_
    rcases turn with none | same
    · rw [none] at held
      cases held
    exact sound.kept here (same ▸ held)
  | lost read claimable becomes turn =>
    subst becomes
    have still : ∀ name, (s.world.claim read.name).row name = s.world.row name := fun name => by
      by_cases same : name = read.name
      · subst same; exact claim_lost claimable
      exact claim_elsewhere same
    refine sound.moved here (fun name row _ is processing => ⟨row,(still name).trans is,processing⟩) (fun mail mem => .inl mem) fun name held => ?_
    rw [turn] at held
    cases held
  | taken _ read claimable becomes place turn =>
    subst becomes place
    obtain ⟨row,is,_,claimed⟩ := claim_taken claimable
    have both : (s.flows.all (·.turn ≠ some read.name) && s.world.mails.all fun mail => !(mail.event = read.name && mail.accepted)) := by
      simpa only [Pc.alone,claimable,Bool.not_true,Bool.false_or] using lone
    obtain ⟨nobody,nothing⟩ := and_eq_true_iff.mp both
    refine sound.moved here (fun name row _ is processing => ?_) (fun mail mem => .inl mem) fun name held => ?_
    · by_cases same : name = read.name
      · subst same
        exact ⟨_,claimed,rfl⟩
      · exact ⟨row,(claim_elsewhere same).trans is,processing⟩
    rw [turn] at held
    cases held
    refine ⟨⟨_,claimed,rfl⟩,fun other rival _ found held => ?_,fun mail mem event accepted => ?_⟩
    · exact of_decide_eq_true (all_eq_true.mp nobody rival (List.mem_of_getElem? found)) held
    have refused := all_eq_true.mp nothing mail mem
    simp [event,accepted] at refused
  | wrote other _ named _ becomes held turn =>
    subst becomes
    refine sound.moved here (fun name row apart is processing => ⟨row,?_,processing⟩) (fun mail mem => .inl mem) fun name own => ?_
    · have differs : name ≠ other := fun same => apart (same ▸ held)
      rw [row_elsewhere named differs]
      exact is
    rw [turn] at own
    cases own
  | mailed _ by_worker becomes held keeps =>
    subst becomes
    have mine := sound.kept here held
    refine sound.moved here (fun name row _ is processing => ⟨row,is,processing⟩) (fun other mem => ?_) fun name turn => ?_
    · rcases mem_cons.mp mem with rfl | old
      · exact .inr ⟨by_worker,held⟩
      · exact .inl old
    rw [keeps] at turn
    cases turn
    refine ⟨mine.1,mine.2.1,fun other mem event accepted => ?_⟩
    rcases mem_cons.mp mem with rfl | old
    · exact by_worker
    exact mine.2.2 other old event accepted
end

theorem next_sound (sound : Sound s) (moved : next s action = some t) (lone : alone s action) : Sound t := by
  cases action with
  | enqueue event =>
    cases moved
    have mails : (s.world.enqueue event).mails = s.world.mails := by unfold World.enqueue; split <;> rfl
    refine ⟨fun worker pc name found turn => ?_,sound.single,fun worker pc name found turn => ?_⟩
    · obtain ⟨row,is,processing⟩ := sound.processing worker pc name found turn
      exact ⟨row,row_enqueue event is,processing⟩
    rw [mails]
    exact sound.own worker pc name found turn
  | start =>
    cases moved
    have place : ∀ {worker : Nat} {pc : Pc} {name : Nat}, (s.flows++[.select 0])[worker]? = some pc → pc.turn = some name →
        s.flows[worker]? = some pc := fun {worker pc name} found turn => by
      rw [List.getElem?_append] at found
      split at found
      · exact found
      cases mem_singleton.mp (List.mem_of_getElem? found)
      cases turn
    exact ⟨fun worker pc name found turn => sound.processing worker pc name (place found turn) turn,
      fun worker other pc rival name one two hold held => sound.single worker other pc rival name (place one hold) (place two held) hold held,
      fun worker pc name found turn => sound.own worker pc name (place found turn) turn⟩
  | crash worker =>
    cases moved
    cases here : s.flows[worker]? with
    | none =>
      rw [set_eq_of_length_le (List.getElem?_eq_none_iff.mp here)]
      exact sound
    | some => exact sound.moved here (fun name row _ is processing => ⟨row,is,processing⟩) (fun mail mem => .inl mem) nofun
  | tick => cases moved; exact ⟨sound.processing,sound.single,sound.own⟩
  | reply =>
    obtain ⟨_,here,ran⟩ := bind_eq_some_iff.mp moved
    obtain ⟨⟨v,_⟩,called,same⟩ := map_eq_some_iff.mp ran
    cases same
    exact effect_sound sound here (by simpa only [alone,here] using lone) (call_effect called)

theorem effect_row (effect : Effect s.world v worker pc after) (found : s.world.row name = some row) :
    (v.row name = some row) ∨ (row.due s.world.now ∧ v.row name = some (row.claimed s.world.now)) ∨
      (pc.turn = some name ∧ ∃ changed, v.row name = some changed) := by
  cases effect with
  | same still => subst still; exact .inl found
  | mailed _ _ becomes => subst becomes; exact .inl found
  | lost read claimable becomes =>
    subst becomes
    by_cases same : name = read.name
    · subst same; exact .inl ((claim_lost claimable).trans found)
    exact .inl ((claim_elsewhere same).trans found)
  | taken _ read claimable becomes =>
    subst becomes
    by_cases same : name = read.name
    · subst same
      obtain ⟨_,is,due,claimed⟩ := claim_taken claimable
      cases found.symm.trans is
      exact .inr (.inl ⟨due,claimed⟩)
    exact .inl ((claim_elsewhere same).trans found)
  | wrote other _ named _ becomes held =>
    subst becomes
    by_cases same : name = other
    · subst same; exact .inr (.inr ⟨held,_,row_here named found⟩)
    exact .inl ((row_elsewhere named same).trans found)

theorem effect_absent (effect : Effect s.world v worker pc after) (absent : s.world.row name = none) : v.row name = none := by
  cases effect with
  | same still => subst still; exact absent
  | mailed _ _ becomes => subst becomes; exact absent
  | taken _ read _ becomes | lost read _ becomes =>
    subst becomes
    show (s.world.update read.name _).row name = none
    rw [row_update (claim_name s.world.now),absent]
    rfl
  | wrote _ _ named _ becomes =>
    subst becomes
    rw [row_update named,absent]
    rfl

theorem due_open {row : Row} (due : row.due now) : row.status.final = false := by
  have clause := (and_eq_true_iff.mp due).2
  rcases or_eq_true_iff.mp clause with pending | processing
  · rw [of_decide_eq_true (and_eq_true_iff.mp pending).1]; rfl
  rw [of_decide_eq_true (and_eq_true_iff.mp processing).1]; rfl

theorem Sound.final (sound : Sound s) : Final s := by
  refine ⟨fun action t name row moved found final => ?_,fun worker reply t name left moved left_row changed outcome mail mem event accepted => ?_⟩
  · cases action with
    | enqueue event => cases moved; exact ⟨row,row_enqueue event found,rfl⟩
    | start | crash worker | tick seconds => cases moved; exact ⟨row,found,rfl⟩
    | reply worker =>
      obtain ⟨pc,here,ran⟩ := bind_eq_some_iff.mp moved
      obtain ⟨⟨v,_⟩,called,same⟩ := map_eq_some_iff.mp ran
      cases same
      rcases effect_row (call_effect called) found with still | ⟨due,_⟩ | ⟨turn,_⟩
      · exact ⟨row,still,rfl⟩
      · rw [due_open due] at final
        cases final
      obtain ⟨_,is,processing⟩ := sound.processing worker pc name here turn
      cases found.symm.trans is
      rw [processing] at final
      cases final
  obtain ⟨pc,here,ran⟩ := bind_eq_some_iff.mp moved
  obtain ⟨⟨v,_⟩,called,same⟩ := map_eq_some_iff.mp ran
  cases same
  cases before : s.world.row name with
  | none => exact absurd left_row (by rw [effect_absent (call_effect called) before]; exact nofun)
  | some =>
    rcases effect_row (call_effect called) before with still | ⟨_,claimed⟩ | ⟨turn,_⟩
    · exact absurd (still.trans before.symm) changed
    · cases left_row.symm.trans claimed
      rcases outcome with pending | failed
      · cases pending
      cases failed
    exact sound.own worker pc name here turn mail mem event accepted
end

-- The limits hold in every run; outcomes are final where no claim takes a row that another run still works on or
-- whose mail was accepted.
theorem outcomes_final {now : Nat} : (∀ actions s, Runs Step (idle now) actions s → Bounded s) ∧
    ∀ actions s, Runs (Guarded Step fun s action => alone s action = true) (idle now) actions s → Final s := by
  have nothing : ∀ {worker : Nat} {pc : Pc}, ([] : List Pc)[worker]? = some pc → False := nofun
  refine ⟨fun actions s run => ?_,fun actions s run => ?_⟩
  · refine (run.preserves Counted (fun _ _ _ counted taken => next_counted counted taken) 
      ⟨fun row member => (not_mem_nil member).elim,fun name => ?_⟩).bounded
    exact Int.le_of_eq (by simp [idle,World.spent,World.row,find])
  exact (run.preserves Sound (fun _ _ _ sound taken => next_sound sound taken.1 taken.2)
    ⟨fun _ _ _ found => (nothing found).elim,fun _ _ _ _ _ found => (nothing found).elim,fun _ _ _ found => (nothing found).elim⟩).final

def finished : Event := ⟨7,.readyForReview,"p1",none,"t1",none,"a1","ops:s1",none,none⟩
def arrive (actions : List Action) : Option State := follow next (idle 1000) actions
def replies (worker : Nat) (answers : List Reply) : List Action := answers.map (.reply worker)

def retried : List Action :=
  .enqueue finished :: .start :: replies 0 [.ok,.ok,.address (some "a@b.c"),.mail .refused,.ok,.ok]++.tick 600 ::
    .start :: replies 1 [.ok,.ok,.address (some "a@b.c"),.mail .accepted,.ok]

def retriedState : State := (arrive retried).getD (idle 1000)

theorem outcomes_final_example : retriedState.world.rows.map (·.status) = [.sent] ∧ Bounded retriedState ∧ Final retriedState :=
  have run : Runs (Guarded Step fun s action => alone s action = true) (idle 1000) retried retriedState := Runs.of_checked rfl
  ⟨rfl,outcomes_final.1 _ _ run.unguarded,outcomes_final.2 _ _ run⟩

-- A mail that outlasts its lease: the second worker sends the notice, and the first, whose mail is refused at last,
-- turns the sent row back to pending.
def overdue : List Action :=
  .enqueue finished :: .start :: replies 0 [.ok,.ok,.address (some "a@b.c")]++.tick 600 ::
    .start :: replies 1 [.ok,.ok,.address (some "a@b.c"),.mail .accepted,.ok]++replies 0 [.mail .refused]

def overdueState : State := (arrive overdue).getD (idle 1000)
def revived : State := (next overdueState (.reply 0 .ok)).getD (idle 1000)

theorem outcomes_lost : arrive overdue = some overdueState ∧ Step overdueState (.reply 0 .ok) revived ∧
    overdueState.world.rows.map (·.status) = [.sent] ∧ revived.world.rows.map (·.status) = [.pending] ∧ ¬Final overdueState := by
  refine ⟨rfl,rfl,rfl,rfl,fun final => ?_⟩
  obtain ⟨_,is,same⟩ := final.settled (.reply 0 .ok) revived 7 ⟨finished,.sent,2,1000,none⟩ rfl rfl rfl
  cases is
  cases same
end LedgeTopOps.ProcessingNotices
