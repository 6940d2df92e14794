import LedgeTopOps.PortalNoticeStaging
import LedgeTopOps.FlowLists

namespace LedgeTopOps.PortalNotices
open List SqlBatches KeyedRows StepRuns FlowLists Bool
open Option (map_eq_some_iff)

def Pc.holds : Pc → Option Id
  | .authorize row _ => row.lease
  | .publish row _ _ => row.lease
  | .submit row _ _ => row.lease
  | .finish row _ _ _ => row.lease
  | _ => none

def Pc.working : Pc → Bool
  | .authorize .. | .publish .. | .submit .. | .finish .. => true
  | _ => false

def Pc.knows (db : Db) : Pc → Prop
  | .submit row fingerprint _ => ∃ b ∈ db.batches, b.id = row.id ∧ b.dispatch = some fingerprint
  | _ => True

def Pc.leased (pc : Pc) : Prop := pc.working = true → pc.holds.isSome = true

inductive Moves (now : Nat) (pc : Pc) (b c : Batch) : Prop where
  | same (kept : c.status = b.status)
  | claimed (is : c.status = .processing)
  | finished (working : pc.working = true) (holder : b.lease = pc.holds) (was : b.status = .processing)
  | exhausted (is : c.status = .failed) (spent : 3 ≤ b.attempts) (due : b.due now = true)

structure Acts (now : Nat) (pc : Pc) (db after : Db) : Prop where
  valid : Valid after
  later : Later db after
  moves : ∀ b ∈ db.batches, ∀ c ∈ after.batches, c.id = b.id → Moves now pc b c

section
variable {db after : Db}

theorem update_acts (valid : Valid db) (pc : Pc) (gentle : ∀ b ∈ db.batches, condition b → Gentle b (change b))
    (moves : ∀ b ∈ db.batches, condition b → Moves now pc b (change b)) : Acts now pc db (db.update condition change) where
  valid := ⟨update_core valid.core gentle,valid.staged⟩
  later := update_later gentle
  moves b mem c there named := by
    obtain ⟨x,listed,⟨met,rfl⟩ | ⟨unmet,rfl⟩⟩ := mem_update there
    · cases valid.core.batches.unique listed mem ((gentle x listed met).follows.id.symm.trans named)
      exact moves _ listed met
    cases valid.core.batches.unique listed mem named
    exact .same rfl

theorem acts_refl (valid : Valid db) (pc : Pc) : Acts now pc db db where
  valid := valid
  later := .refl db
  moves b mem c there named := by
    cases valid.core.batches.unique there mem named
    exact .same rfl

theorem due_open {b : Batch} (due : b.due now) : b.status.final = false := by
  simp only [Batch.due,or_eq_true,and_eq_true,decide_eq_true_eq] at due
  rcases due with ⟨is,_⟩ | ⟨is,_⟩
  · rw [is]; rfl
  rw [is]; rfl

theorem final_elim {b : Batch} (notFinal : b.status.final = false) (final : b.status.final) : status = b.status := by
  rw [notFinal] at final
  cases final

theorem exhaust_acts (valid : Valid db) (pc : Pc) (done : exhaust now ids db changes = some (after,counted)) : Acts now pc db after := by
  obtain ⟨rfl,_⟩ := updateBatches_some done
  refine update_acts valid pc (fun b mem met => ?_) fun b mem met => ?_
  · simp only [and_eq_true] at met
    exact ⟨⟨rfl,rfl,fun _ => rfl,final_elim (due_open met.2),fun _ is => is⟩,nofun,valid.core.attempts b mem,fun is => is,fun _ => nofun⟩
  simp only [and_eq_true,decide_eq_true_eq] at met
  exact .exhausted rfl met.1.2 met.2

theorem claim_acts (valid : Valid db) (pc : Pc) (done : claim now row token db changes = some (after,counted)) : Acts now pc db after := by
  obtain ⟨rfl,_⟩ := updateBatches_some done
  refine update_acts valid pc (fun b mem met => ?_) fun b mem met => .claimed rfl
  simp only [and_eq_true,decide_eq_true_eq] at met
  refine ⟨⟨rfl,rfl,fun is => ?_,final_elim (due_open met.2),fun _ is => is⟩,nofun,met.1.2,fun is => is,fun _ _ => rfl⟩
  obtain ⟨_,is⟩ := Option.isSome_iff_exists.mp is
  rw [is]
  rfl

theorem publish_acts {guarded : Bool} (valid : Valid db) (pc : Pc) (done : publish now row fingerprint guarded db changes = some (after,counted)) :
    Acts now pc db after ∧ (counted ≠ 0 → ∃ b ∈ after.batches, b.id = row.id ∧ b.dispatch = some fingerprint) := by
  obtain ⟨rfl,count⟩ := updateBatches_some done
  have gentle : ∀ b ∈ db.batches, (b.id = row.id && b.status = .processing && b.lease = row.lease && b.leaseExpiresAt.any (now < ·) &&
      (b.dispatch = none || b.dispatch = some fingerprint) && guarded) →
      Gentle b { b with dispatch := some (b.dispatch.getD fingerprint), recipient := some (b.recipient.getD fingerprint.mail.to_) } :=
    fun b mem met => by
      refine ⟨⟨rfl,rfl,fun _ => rfl,fun _ => rfl,fun other is => by rw [is]; rfl⟩,fun is => is,valid.core.attempts b mem,fun is => ?_,fun is => is⟩
      rw [is]
      cases b.dispatch <;> rfl
  refine ⟨update_acts valid pc gentle fun b _ _ => .same rfl,fun some_ => ?_⟩
  rw [count] at some_
  obtain ⟨b,mem,met⟩ := countP_pos_iff.mp (Nat.pos_of_ne_zero some_)
  refine ⟨_,mem_map_of_mem mem,?_,?_⟩
  · rw [if_pos met]
    simp only [and_eq_true,decide_eq_true_eq] at met
    exact met.1.1.1.1.1
  rw [if_pos met]
  simp only [and_eq_true,decide_eq_true_eq,or_eq_true] at met
  show some (b.dispatch.getD fingerprint) = some fingerprint
  rcases met.1.2 with none | own
  · rw [none]; rfl
  rw [own]; rfl

theorem finish_acts (valid : Valid db) (done : finish now row status db changes = some (after,counted)) :
    Acts now (.finish row status handling rest) db after := by
  obtain ⟨rfl,_⟩ := updateBatches_some done
  refine update_acts valid _ (fun b mem met => ?_) fun b mem met => ?_
  · simp only [and_eq_true,decide_eq_true_eq] at met
    have working : b.status.final = false := by rw [met.1.2]; rfl
    refine ⟨⟨rfl,rfl,fun _ => rfl,final_elim working,fun _ is => is⟩,fun isOpen => ?_,valid.core.attempts b mem,fun is => is,
      fun _ _ => valid.core.worked b mem met.1.2⟩
    obtain ⟨_,is⟩ := Option.isSome_iff_exists.mp (valid.core.worked b mem met.1.2)
    simp only [Batch.isOpen,and_eq_true,decide_eq_true_eq] at isOpen
    rw [is] at isOpen
    cases isOpen.2
  simp only [and_eq_true,decide_eq_true_eq] at met
  exact .finished rfl met.2 met.1.2
end

theorem knows_later {db after : Db} {pc : Pc} (later : Later db after) (knows : pc.knows db) : pc.knows after := by
  cases pc with
  | submit _ fingerprint =>
    obtain ⟨b,mem,named,stored⟩ := knows
    obtain ⟨c,there,follows⟩ := later.batches b mem
    exact ⟨c,there,follows.id.trans named,follows.dispatch fingerprint stored⟩
  | _ => trivial

def Passes (drawn : Nat) (pc next : Pc) : Prop := next.holds = pc.holds ∨ next.holds = none ∨ (next.holds = some drawn ∧ pc.draws = 1)

section
variable {db : Db} {pc : Pc}

theorem proceed_leased (rest : List Batch) : (proceed rest).leased := by
  cases rest with
  | nil | cons row others => exact nofun

theorem raised_leased (leased : pc.leased) : pc.raised.leased := by
  cases pc with
  | authorize | publish | submit => exact leased
  | finish _ _ handling =>
    cases handling with
    | false => exact leased
    | true => exact nofun
  | _ => exact nofun

theorem proceed_holds (rest : List Batch) : (proceed rest).holds = none := by
  cases rest <;> rfl

theorem proceed_knows (rest : List Batch) : (proceed rest).knows db := by
  cases rest <;> trivial

theorem raised_holds (pc : Pc) : pc.raised.holds = pc.holds ∨ pc.raised.holds = none := by
  cases pc with
  | authorize | publish | submit => exact .inl rfl
  | finish _ _ handling => cases handling <;> first | exact .inl rfl | exact .inr rfl
  | _ => exact .inr rfl

theorem raised_knows (pc : Pc) (db : Db) : pc.raised.knows db := by
  cases pc with
  | finish _ _ handling => cases handling <;> trivial
  | _ => trivial

theorem quiet_acts {after : Db} (pc : Pc) (valid : Valid after) (quiet : Quiet db after) : Acts now pc db after where
  valid := valid
  later := quiet.later
  moves b mem c there named := by
    obtain ⟨d,listed,same,status⟩ := quiet.statuses b mem
    cases valid.core.batches.unique there listed (named.trans same.symm)
    exact .same status

theorem call_acts (valid : Valid db) : Acts now pc db (pc.call now drawn answers db).1 := by
  cases pc with
  | adopt ids =>
    simp only [Pc.call]
    split
    · rename_i done
      obtain ⟨valid',quiet⟩ := adoption_valid valid done
      exact quiet_acts _ valid' quiet
    exact acts_refl valid _
  | exhaust ids =>
    simp only [Pc.call]
    split
    · rename_i done
      exact exhaust_acts valid _ done
    exact acts_refl valid _
  | claim row rest =>
    simp only [Pc.call]
    split
    · rename_i done
      exact claim_acts valid _ done
    exact acts_refl valid _
  | publish row fingerprint rest =>
    simp only [Pc.call]
    split
    · rename_i done
      exact (publish_acts valid _ done).1
    exact acts_refl valid _
  | finish row status handling rest =>
    simp only [Pc.call]
    split
    · rename_i done
      exact finish_acts valid done
    exact acts_refl valid _
  | _ => exact acts_refl valid _

theorem call_passes : Passes drawn pc (pc.call now drawn answers db).2 := by
  cases pc with
  | exhaustedRead | ended => exact .inr (.inl rfl)
  | candidatesRead => exact .inr (.inl (proceed_holds _))
  | claim =>
    simp only [Pc.call]
    split
    · dsimp only
      split
      · exact .inr (.inl (proceed_holds _))
      exact .inr (.inr ⟨rfl,rfl⟩)
    exact .inr (.inl rfl)
  | authorize =>
    simp only [Pc.call]
    split
    · exact .inl rfl
    split <;> exact .inl rfl
  | publish =>
    simp only [Pc.call]
    split
    · dsimp only
      split <;> exact .inl rfl
    exact .inr (.inl rfl)
  | submit => exact .inl rfl
  | finish =>
    simp only [Pc.call]
    split
    · exact .inr (.inl (proceed_holds _))
    exact .inr (.inl rfl)
  | _ =>
    simp only [Pc.call]
    split <;> exact .inr (.inl rfl)

theorem call_leased (leased : pc.leased) : (pc.call now drawn answers db).2.leased := by
  cases pc with
  | exhaustedRead | ended => exact nofun
  | candidatesRead => exact proceed_leased _
  | claim =>
    simp only [Pc.call]
    split
    · dsimp only
      split
      · exact proceed_leased _
      exact fun _ => rfl
    exact nofun
  | authorize =>
    simp only [Pc.call]
    split
    · exact leased
    split <;> exact leased
  | publish =>
    simp only [Pc.call]
    split
    · dsimp only
      split <;> exact leased
    exact nofun
  | submit => exact leased
  | finish =>
    simp only [Pc.call]
    split
    · exact proceed_leased _
    exact nofun
  | _ =>
    simp only [Pc.call]
    split <;> exact nofun

theorem call_knows (valid : Valid db) : (pc.call now drawn answers db).2.knows (pc.call now drawn answers db).1 := by
  cases pc with
  | adoptRead | adopt | exhaust =>
    simp only [Pc.call]
    split <;> trivial
  | candidatesRead => exact proceed_knows _
  | claim =>
    simp only [Pc.call]
    split
    · dsimp only
      split
      · exact proceed_knows _
      trivial
    trivial
  | authorize =>
    simp only [Pc.call]
    split
    · trivial
    split <;> trivial
  | publish row fingerprint rest =>
    simp only [Pc.call]
    split
    · rename_i done
      split
      · trivial
      rename_i some_
      exact (publish_acts valid (.publish row fingerprint rest) done).2 some_
    trivial
  | finish =>
    simp only [Pc.call]
    split
    · exact proceed_knows _
    trivial
  | _ => trivial
end

structure Sound (s : State) : Prop where
  valid : Valid s.db
  mails : ∀ mail ∈ s.mails, ∃ b ∈ s.db.batches, b.id = mail.1 ∧ b.dispatch = some mail.2
  knows : ∀ pc ∈ s.flows, pc.knows s.db
  leased : ∀ pc ∈ s.flows, pc.leased
  drawn : ∀ (i : Nat) (pc : Pc) (token : Id), s.flows[i]? = some pc → pc.holds = some token → token < s.drawn
  holders : ∀ (i j : Nat) (p q : Pc) (token : Id), s.flows[i]? = some p → s.flows[j]? = some q → p.holds = some token → q.holds = some token → i = j

section
variable {s t : State} {pc : Pc} {db after : Db}

theorem stored_later {mail : Id × Fingerprint} (later : Later db after) (stored : ∃ b ∈ db.batches, b.id = mail.1 ∧ b.dispatch = some mail.2) :
    ∃ b ∈ after.batches, b.id = mail.1 ∧ b.dispatch = some mail.2 := by
  obtain ⟨b,listed,named,is⟩ := stored
  obtain ⟨c,there,follows⟩ := later.batches b listed
  exact ⟨c,there,follows.id.trans named,follows.dispatch _ is⟩

theorem direct_kept {row wrote : Outbox} (done : row.direct now change = some wrote) : wrote.id = row.id ∧ row.status ≠ .suppressed := by
  cases change with
  | extend | finish =>
    obtain ⟨met,is⟩ := Option.ite_none_right_eq_some.mp done
    cases is
    refine ⟨rfl,fun suppressed => ?_⟩
    rw [suppressed] at met
    cases met
  | _ =>
    obtain ⟨met,is⟩ := Option.ite_none_right_eq_some.mp done
    cases is
    refine ⟨rfl,fun suppressed => ?_⟩
    rw [Outbox.available,suppressed] at met
    exact absurd met.1 nofun

theorem direct_valid {row : Outbox} (valid : Valid db) (done : ((db.row o).bind fun row => row.direct now change) = some row) :
    Valid { db with outbox := amend Outbox.id db.outbox o fun _ => row } ∧ Quiet db { db with outbox := amend Outbox.id db.outbox o fun _ => row } := by
  obtain ⟨_,found,wrote⟩ := Option.bind_eq_some_iff.mp done
  obtain ⟨listed,named⟩ := find_some found
  obtain ⟨same,apart⟩ := direct_kept wrote
  have core := valid.core
  refine ⟨⟨⟨core.rows.amend _ fun old _ is => same.trans (named.trans is.symm),core.batches,core.items,core.limit,core.single,core.attempts,
    core.published,core.worked⟩,fun item mem => ?_⟩,⟨fun b mem => ⟨b,mem,.refl b⟩,prefix_refl _,fun _ _ _ => rfl⟩,
    fun b mem => ⟨b,mem,rfl,rfl⟩⟩
  obtain ⟨kept,there,own,suppressed⟩ := valid.staged item mem
  refine ⟨kept,mem_amend.mpr (.inl ⟨there,fun is => ?_⟩),own,suppressed⟩
  cases core.rows.unique there listed (is.trans named.symm)
  exact apart suppressed

theorem set_holders (sound : Sound s) (here : s.flows[flow]? = some pc) (more : s.drawn ≤ drawn)
    (own : ∀ token, place.holds = some token → pc.holds = some token ∨ (token = s.drawn ∧ s.drawn < drawn)) :
    (∀ (i : Nat) (p : Pc) (token : Id), (s.flows.set flow place)[i]? = some p → p.holds = some token → token < drawn) ∧
    ∀ (i j : Nat) (p q : Pc) (token : Id), (s.flows.set flow place)[i]? = some p → (s.flows.set flow place)[j]? = some q →
      p.holds = some token → q.holds = some token → i = j := by
  have apart : ∀ (j : Nat) (q : Pc) (token : Id), flow ≠ j → s.flows[j]? = some q → place.holds = some token → q.holds = some token → False :=
    fun j q token other there is held => by
      rcases own token is with before | ⟨fresh,_⟩
      · exact other (sound.holders flow j pc q token here there before held)
      have less := sound.drawn j q token there held
      rw [fresh] at less
      exact Nat.lt_irrefl _ less
  refine ⟨fun i p token there is => ?_,fun i j p q token left right held held' => ?_⟩
  · obtain ⟨rfl,rfl⟩ | ⟨_,there⟩ := moved_get there
    · rcases own token is with before | ⟨rfl,less⟩
      · exact Nat.lt_of_lt_of_le (sound.drawn i pc token here before) more
      · exact less
    · exact Nat.lt_of_lt_of_le (sound.drawn i p token there is) more
  obtain ⟨rfl,rfl⟩ | ⟨first,before⟩ := moved_get left
  · obtain ⟨rfl,_⟩ | ⟨second,there⟩ := moved_get right
    · rfl
    · exact (apart j q token second.symm there held held').elim
  obtain ⟨rfl,rfl⟩ | ⟨_,there⟩ := moved_get right
  · exact (apart i p token first.symm before held' held).elim
  exact sound.holders i j p q token before there held held'

theorem unmoved_sound (sound : Sound s) (valid : Valid after) (later : Later s.db after) (more : s.drawn ≤ drawn) :
    Sound { s with db := after, now := now, drawn := drawn } where
  valid := valid
  mails mail mem := stored_later later (sound.mails mail mem)
  knows pc mem := knows_later later (sound.knows pc mem)
  leased := sound.leased
  drawn i pc token there is := Nat.lt_of_lt_of_le (sound.drawn i pc token there is) more
  holders := sound.holders

theorem moved_sound (sound : Sound s) (here : s.flows[flow]? = some pc) (valid : Valid after)
    (later : Later s.db after) (more : s.drawn ≤ drawn)
    (own : ∀ token, place.holds = some token → pc.holds = some token ∨ (token = s.drawn ∧ s.drawn < drawn)) (knows : place.knows after)
    (leased : place.leased) (stored : ∀ mail ∈ mails, ∃ b ∈ after.batches, b.id = mail.1 ∧ b.dispatch = some mail.2) :
    Sound { s with db := after, drawn := drawn, flows := s.flows.set flow place, mails := mails } where
  valid := valid
  mails := stored
  knows p mem := by
    rcases mem_or_eq_of_mem_set mem with old | rfl
    · exact knows_later later (sound.knows p old)
    exact knows
  leased p mem := by
    rcases mem_or_eq_of_mem_set mem with old | rfl
    · exact sound.leased p old
    exact leased
  drawn := (set_holders sound here more own).1
  holders := (set_holders sound here more own).2

theorem mail_stored (knows : pc.knows db) : ∀ mail ∈ pc.mail, ∃ b ∈ db.batches, b.id = mail.1 ∧ b.dispatch = some mail.2 := by
  intro _ mem
  cases pc with
  | submit =>
    cases mem_singleton.mp mem
    exact knows
  | _ => cases mem

theorem stepped_acts (sound : Sound s) (flow : Nat) (answers : Answers) (pc : Pc) : Acts s.now pc s.db (s.stepped flow answers pc).db := by
  unfold State.stepped
  split
  · exact acts_refl sound.valid pc
  exact call_acts sound.valid

theorem stepped_sound (sound : Sound s) (answers : Answers) (here : s.flows[flow]? = some pc) : Sound (s.stepped flow answers pc) := by
  have acts := stepped_acts sound flow answers pc
  have mails : ∀ mail ∈ pc.mail++s.mails, ∃ b ∈ s.db.batches, b.id = mail.1 ∧ b.dispatch = some mail.2 := fun mail mem => by
    rcases mem_append.mp mem with new | old
    · exact mail_stored (sound.knows pc (List.mem_of_getElem? here)) mail new
    exact sound.mails mail old
  have passes : Passes s.drawn pc (if answers.raises then (s.db,pc.raised) else pc.call s.now s.drawn answers s.db).2 := by
    split
    · rcases raised_holds pc with same | none
      · exact .inl same
      · exact .inr (.inl none)
    exact call_passes
  refine moved_sound sound here acts.valid acts.later (Nat.le_add_right _ _) (fun token is => ?_) ?_ ?_ fun mail mem => stored_later acts.later (mails mail mem)
  · rcases passes with same | none | ⟨fresh,one⟩
    · exact .inl (same.symm.trans is)
    · rw [none] at is
      cases is
    · rw [fresh] at is
      rw [one]
      exact .inr ⟨(Option.some.inj is).symm,Nat.lt_succ_self _⟩
  · split
    · exact raised_knows pc _
    · exact call_knows sound.valid
  have leased := sound.leased pc (List.mem_of_getElem? here)
  split
  · exact raised_leased leased
  exact call_leased leased

theorem next_sound (sound : Sound s) (moved : PortalNotices.next s event = some t) : Sound t := by
  cases event with
  | intent =>
    cases moved
    obtain ⟨valid,quiet⟩ := intent_valid sound.valid
    exact unmoved_sound sound valid quiet.later (Nat.le_add_right _ 2)
  | direct =>
    obtain ⟨_,wrote,rfl⟩ := map_eq_some_iff.mp moved
    obtain ⟨valid,quiet⟩ := direct_valid sound.valid wrote
    exact unmoved_sound sound valid quiet.later (Nat.le_refl _)
  | tick =>
    cases moved
    exact unmoved_sound sound sound.valid (.refl _) (Nat.le_refl _)
  | start =>
    cases moved
    have old : ∀ (i : Nat) (p : Pc) (token : Id), (s.flows++[Pc.adoptRead])[i]? = some p → p.holds = some token → s.flows[i]? = some p :=
      fun i p token there is => by
        rcases Nat.lt_or_ge i s.flows.length with short | long
        · rw [List.getElem?_append_left short] at there
          exact there
        rw [List.getElem?_append_right long] at there
        cases mem_singleton.mp (List.mem_of_getElem? there)
        cases is
    refine ⟨sound.valid,sound.mails,fun pc mem => ?_,fun pc mem => ?_,fun i pc token there is => sound.drawn i pc token (old i pc token there is) is,
      fun i j p q token left right held held' => sound.holders i j p q token (old i p token left held) (old j q token right held') held held'⟩
    · rcases mem_snoc.mp mem with here | rfl
      · exact sound.knows pc here
      · trivial
    rcases mem_snoc.mp mem with here | rfl
    · exact sound.leased pc here
    exact nofun
  | step _ answers =>
    obtain ⟨_,here,rfl⟩ := map_eq_some_iff.mp moved
    exact stepped_sound sound answers here
  | crash =>
    obtain ⟨pc,here,rfl⟩ := map_eq_some_iff.mp moved
    exact moved_sound sound here sound.valid (.refl _) (Nat.le_refl _) (fun _ => nofun) trivial nofun sound.mails

structure Kept (s : State) (event : Event) (t : State) : Prop where
  later : Later s.db t.db
  moves : ∀ b ∈ s.db.batches, ∀ c ∈ t.db.batches, c.id = b.id → c.status = b.status ∨
    ∃ flow answers pc, event = .step flow answers ∧ s.flows[flow]? = some pc ∧ Moves s.now pc b c

theorem next_kept (sound : Sound s) (moved : PortalNotices.next s event = some t) : Kept s event t := by
  have unmoved : ∀ {after : Db}, Valid after → Quiet s.db after → ∀ b ∈ s.db.batches, ∀ c ∈ after.batches, c.id = b.id → c.status = b.status :=
    fun valid quiet b mem c there named => by
      obtain ⟨d,listed,same,status⟩ := quiet.statuses b mem
      cases valid.core.batches.unique there listed (named.trans same.symm)
      exact status
  cases event with
  | intent =>
    cases moved
    obtain ⟨valid,quiet⟩ := intent_valid sound.valid
    exact ⟨quiet.later,fun b mem c there named => .inl (unmoved valid quiet b mem c there named)⟩
  | direct =>
    obtain ⟨_,wrote,rfl⟩ := map_eq_some_iff.mp moved
    obtain ⟨valid,quiet⟩ := direct_valid sound.valid wrote
    exact ⟨quiet.later,fun b mem c there named => .inl (unmoved valid quiet b mem c there named)⟩
  | tick | start =>
    cases moved
    exact ⟨.refl _,fun b mem c there named => .inl (unmoved sound.valid (.refl _) b mem c there named)⟩
  | step flow answers =>
    obtain ⟨pc,here,rfl⟩ := map_eq_some_iff.mp moved
    have acts := stepped_acts sound flow answers pc
    exact ⟨acts.later,fun b mem c there named => .inr ⟨flow,answers,pc,rfl,here,acts.moves b mem c there named⟩⟩
  | crash =>
    obtain ⟨_,_,rfl⟩ := map_eq_some_iff.mp moved
    exact ⟨.refl _,fun b mem c there named => .inl (unmoved sound.valid (.refl _) b mem c there named)⟩

theorem initial_sound : Sound initial where
  valid := {
    core := {
      rows := .nil
      batches := .nil
      items := .nil
      limit := fun _ => Nat.zero_le _
      single := fun b mem => (not_mem_nil mem).elim
      attempts := fun b mem => (not_mem_nil mem).elim
      published := fun b mem => (not_mem_nil mem).elim
      worked := fun b mem => (not_mem_nil mem).elim }
    staged := fun item mem => (not_mem_nil mem).elim }
  mails mail mem := (not_mem_nil mem).elim
  knows pc mem := (not_mem_nil mem).elim
  leased pc mem := (not_mem_nil mem).elim
  drawn i pc token there := by cases there
  holders i j p q token left := by cases left

theorem run_sound (path : Runs (fun s e t => next s e = some t) initial events s) : Sound s :=
  path.preserves Sound (fun _ _ _ sound moved => next_sound sound moved) initial_sound
end

structure Batched (s : State) : Prop where
  once : ∀ item ∈ s.db.items, ∀ other ∈ s.db.items, item.outbox = other.outbox → item = other
  apart : ∀ item ∈ s.db.items, ∀ row ∈ s.db.outbox, row.id = item.outbox → row.status ≠ .pending ∧ ∀ now change, row.direct now change = none
  limit : ∀ b, (s.db.itemsOf b).length ≤ 50
  single : ∀ b ∈ s.db.batches, ∀ c ∈ s.db.batches, b.isOpen = true → c.isOpen = true → b.lane = c.lane → b = c
  attempts : ∀ b ∈ s.db.batches, b.attempts ≤ 3
  mails : ∀ mail ∈ s.mails, ∀ other ∈ s.mails, mail.1 = other.1 → mail.2 = other.2
  recipients : ∀ mail ∈ s.mails, ∀ b ∈ s.db.batches, b.id = mail.1 → b.recipient = some mail.2.mail.to_
  holders : ∀ (i j : Nat) (p q : Pc) (token : Id), s.flows[i]? = some p → s.flows[j]? = some q →
    p.holds = some token → q.holds = some token → i = j

structure Steady (s : State) (event : Event) (t : State) : Prop where
  final : ∀ b ∈ s.db.batches, b.status.final = true → ∃ c ∈ t.db.batches, c.id = b.id ∧ c.status = b.status
  sealedItems : ∀ b ∈ s.db.batches, b.sealedAt.isSome = true → t.db.itemsOf b.id = s.db.itemsOf b.id ∧
    ∃ c ∈ t.db.batches, c.id = b.id ∧ c.sealedAt = b.sealedAt
  finished : ∀ b ∈ s.db.batches, ∀ c ∈ t.db.batches, c.id = b.id → c.status ≠ b.status → c.status ≠ .processing →
    ∃ flow answers pc, event = .step flow answers ∧ s.flows[flow]? = some pc ∧
      ((b.status = .processing ∧ b.lease.isSome = true ∧ b.lease = pc.holds) ∨ (c.status = .failed ∧ 3 ≤ b.attempts ∧ b.due s.now = true))

theorem Sound.batched {s : State} (sound : Sound s) : Batched s where
  once item mem other there same := sound.valid.core.items.unique mem there same
  apart item mem row listed named := by
    obtain ⟨_,there,own,suppressed⟩ := sound.valid.staged item mem
    cases sound.valid.core.rows.unique listed there (named.trans own.symm)
    refine ⟨?_,fun now change => ?_⟩
    · rw [suppressed]
      exact nofun
    cases wrote : row.direct now change with
    | none => rfl
    | some => exact absurd suppressed (direct_kept wrote).2
  limit := sound.valid.core.limit
  single := sound.valid.core.single
  attempts := sound.valid.core.attempts
  mails mail mem other there same := by
    obtain ⟨b,listed,named,is⟩ := sound.mails mail mem
    obtain ⟨c,listed',named',is'⟩ := sound.mails other there
    cases sound.valid.core.batches.unique listed listed' (named.trans (same.trans named'.symm))
    exact Option.some.inj (is.symm.trans is')
  recipients mail mem b listed named := by
    obtain ⟨c,listed',named',is⟩ := sound.mails mail mem
    cases sound.valid.core.batches.unique listed listed' (named.trans named'.symm)
    rw [sound.valid.core.published b listed,is]
    rfl
  holders := sound.holders

theorem Sound.steady (sound : Sound s) (moved : next s event = some t) : Steady s event t := by
  have kept := next_kept sound moved
  refine ⟨fun b mem final => ?_,fun b mem isSealed => ⟨kept.later.sealedItems b mem isSealed,?_⟩,fun b mem c there named apart idle => ?_⟩
  · obtain ⟨c,there,follows⟩ := kept.later.batches b mem
    exact ⟨c,there,follows.id,follows.final final⟩
  · obtain ⟨c,there,follows⟩ := kept.later.batches b mem
    exact ⟨c,there,follows.id,follows.sealedAt isSealed⟩
  rcases kept.moves b mem c there named with same | ⟨flow,answers,pc,is,here,moves⟩
  · exact absurd same apart
  refine ⟨flow,answers,pc,is,here,?_⟩
  cases moves with
  | same kept => exact absurd kept apart
  | claimed processing => exact absurd processing idle
  | finished working holder was =>
    refine .inl ⟨was,?_,holder⟩
    rw [holder]
    exact sound.leased pc (List.mem_of_getElem? here) working
  | exhausted failed spent due => exact .inr ⟨failed,spent,due⟩

theorem batches_kept {events : List Event} {s : State} (path : Runs (fun s e t => next s e = some t) initial events s) :
    Batched s ∧ ∀ event t, next s event = some t → Steady s event t :=
  ⟨(run_sound path).batched,fun _ _ moved => (run_sound path).steady moved⟩

def plainFacts (o : Id) : Option Facts := some ⟨⟨"source-1","workspace-1","binding-1","3","client-1","2"⟩,⟨"delivery","public-1","prefix-1"⟩,o⟩
def answer (chosen : List Id) : Answers := ⟨plainFacts,chosen,some ("client@example.test","authority-1"),true,false⟩

def claiming (flow wait : Nat) (b : Id) : List Event :=
  [.tick wait,.start,.step flow (answer []),.step flow (answer []),.step flow (answer []),.step flow (answer [b]),.step flow (answer [])]

def mailing : List Event :=
  [.intent 7 true true plainFacts,.intent 8 true true plainFacts,.intent 9 true false plainFacts,.start,.step 0 (answer [9]),.step 0 (answer []),.crash 0] ++
    claiming 1 300 1++replicate 4 (.step 1 (answer []))

def mailedState : State := (follow next initial mailing).getD initial

theorem batches_kept_example : mailedState.mails.map (·.1) = [1] ∧ (mailedState.db.itemsOf 1).map (·.outbox) = [7,8,9] ∧
    mailedState.db.batches.map (·.status) = [.sent] ∧ Batched mailedState ∧ ∀ event t, next mailedState event = some t → Steady mailedState event t :=
  have run : Runs (fun s e t => next s e = some t) initial mailing mailedState := Runs.of_follow rfl
  ⟨rfl,rfl,rfl,batches_kept run⟩

def crashing : List Event :=
  [.intent 7 true true plainFacts]++claiming 0 300 1++[.crash 0]++claiming 1 900 1++[.crash 1]++claiming 2 900 1 ++
    [.crash 2,.tick 900,.start,.step 3 (answer []),.step 3 (answer [1])]

def spentState : State := (follow next initial crashing).getD initial
def failedState : State := spentState.stepped 3 (answer []) (.exhaust [1])

def HolderFinishes (s : State) (event : Event) (t : State) : Prop :=
  ∀ b ∈ s.db.batches, ∀ c ∈ t.db.batches, c.id = b.id → c.status ≠ b.status → c.status ≠ .processing →
    ∃ flow answers pc, event = .step flow answers ∧ s.flows[flow]? = some pc ∧ b.lease.isSome = true ∧ b.lease = pc.holds

theorem exhausted_unheld : ¬ ∀ (events : List Event) (s : State), Runs (fun s e t => next s e = some t) initial events s →
    ∀ event t, next s event = some t → HolderFinishes s event t := by
  intro claimed
  have run : Runs (fun s e t => next s e = some t) initial crashing spentState := Runs.of_follow rfl
  have first : spentState.db.batches.map (fun b => (b.id,b.status,b.lease)) = [(1,.processing,some 16)] := rfl
  have last : failedState.db.batches.map (fun b => (b.id,b.status,b.lease)) = [(1,.failed,none)] := rfl
  obtain ⟨b,one,is⟩ := map_eq_singleton_iff.mp first
  obtain ⟨c,other,is'⟩ := map_eq_singleton_iff.mp last
  have named : b.id = 1 := congrArg (·.1) is
  have named' : c.id = 1 := congrArg (·.1) is'
  have was : b.status = .processing := congrArg (·.2.1) is
  have failed : c.status = .failed := congrArg (·.2.1) is'
  have leased : b.lease = some 16 := congrArg (·.2.2) is
  have here : spentState.flows[3]? = some (.exhaust [1]) := rfl
  obtain ⟨_,_,_,same,found,_,holder⟩ := claimed crashing spentState run (.step 3 (answer [])) failedState rfl b
    (by rw [one]; exact mem_singleton.mpr rfl) c (by rw [other]; exact mem_singleton.mpr rfl) (named'.trans named.symm)
    (by rw [was,failed]; exact nofun) (by rw [failed]; exact nofun)
  cases same
  cases here.symm.trans found
  rw [leased] at holder
  cases holder

-- Along any stretch of a run sealed batches keep their items, final statuses stay and a stored fingerprint is the only one.
theorem batches_later (path : Runs (fun s e t => next s e = some t) initial earlier s) (more : Runs (fun s e t => next s e = some t) s further t) :
    Later s.db t.db :=
  (more.relates Sound (fun s t => Later s.db t.db) (fun s => .refl s.db) (fun _ _ _ => .trans)
    (fun _ _ _ sound moved => ⟨next_sound sound moved,(next_kept sound moved).later⟩) (run_sound path)).2

theorem batches_later_example : Later ((follow next initial (mailing.take 4)).getD initial).db mailedState.db :=
  @batches_later (mailing.take 4) _ (mailing.drop 4) mailedState (Runs.of_follow rfl) (Runs.of_follow rfl)
end LedgeTopOps.PortalNotices
