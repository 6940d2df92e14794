import LedgeTopOps.ViewerEvents

namespace LedgeTopOps.ViewerEvents
open List KeyedRows SqlBatches StepRuns

structure Ledger (o : Operations) : Prop where
  events : Keyed Event.id o.events
  notices : o.notices = o.events.map Event.id
  audits : o.audits = o.events.map Event.id

def Grows (o after : Operations) : Prop := ∀ id fingerprint, o.fingerprint id = some fingerprint → after.fingerprint id = some fingerprint

section
variable {o after : Operations} {q : Request}

theorem Grows.refl (o : Operations) : Grows o o := fun _ _ known => known

theorem Ledger.once (ledger : Ledger o) : Once o := by
  have single : ∀ e ∈ o.events, (o.events.map Event.id).count e.id = 1 := fun e mem =>
    count_eq_one_of_mem ledger.events (mem_map_of_mem mem)
  refine ⟨ledger.events,fun e mem => ?_,fun e mem => ?_⟩
  · rw [ledger.notices]
    exact single e mem
  rw [ledger.audits]
  exact single e mem

theorem fingerprint_none : o.fingerprint q.event = none ↔ ∀ e ∈ o.events, e.id ≠ q.event := by
  unfold Operations.fingerprint
  rw [Option.map_eq_none_iff]
  exact find_none

def Operations.record (o : Operations) (q : Request) : Operations :=
  { o with events := o.events++[⟨q.event,q.body⟩], notices := o.notices++[q.event], audits := o.audits++[q.event] }

theorem record_ledger (ledger : Ledger o) (fresh : o.fingerprint q.event = none) : Ledger (o.record q) := by
  have added : Keyed Event.id (o.events++[⟨q.event,q.body⟩]) := ledger.events.add (fingerprint_none.mp fresh)
  refine ⟨added,?_,?_⟩
  · show o.notices++_ = (o.events++_).map Event.id
    rw [ledger.notices,map_append]
    rfl
  show o.audits++_ = (o.events++_).map Event.id
  rw [ledger.audits,map_append]
  rfl

theorem record_grows : Grows o (o.record q) := by
  intro _ _ known
  obtain ⟨e,found,rfl⟩ := Option.map_eq_some_iff.mp known
  exact Option.map_eq_some_iff.mpr ⟨e,find_append found,rfl⟩

theorem record_own (ledger : Ledger o) (fresh : o.fingerprint q.event = none) : (o.record q).fingerprint q.event = some q.body := by
  have mem : (⟨q.event,q.body⟩ : Event) ∈ (o.record q).events := mem_append_right _ (.head _)
  exact Option.map_eq_some_iff.mpr ⟨_,(record_ledger ledger fresh).events.find mem,rfl⟩

section
variable (ledger : Ledger o) (done : batch (received now stored q) o 0 = some (after,counts))
include ledger done

theorem received_cases :
    (∃ nonces, after = { o with nonces := nonces } ∧ counts[1]? = some 0) ∨
      (o.fingerprint q.event = none ∧ ∃ nonces, after = { o with nonces := nonces }.record q) := by
  obtain ⟨one,_,_,nonce,others,rfl⟩ := batch_cons.mp done
  obtain ⟨_,_,_,event,last,rfl⟩ := batch_cons.mp others
  obtain ⟨_,_,_,notice,final,rfl⟩ := batch_cons.mp last
  obtain ⟨_,_,_,audit,none,rfl⟩ := batch_cons.mp final
  cases none
  have nonced : ∃ nonces, one = { o with nonces := nonces } := by
    rcases guarded_some nonce with ⟨_,is,_⟩ | ⟨_,is,_⟩
    · exact ⟨_,(Option.some.inj is).symm⟩
    exact ⟨o.nonces,is⟩
  obtain ⟨nonces,rfl⟩ := nonced
  rcases guarded_some event with ⟨met,is,rfl⟩ | ⟨_,rfl,rfl⟩
  · right
    rw [Bool.and_eq_true,Option.isNone_iff_eq_none] at met
    have fresh : o.fingerprint q.event = none := met.2
    refine ⟨fresh,nonces,?_⟩
    cases is
    have unnoticed : q.event ∉ o.notices := by
      rw [ledger.notices]
      intro mem
      obtain ⟨e,there,same⟩ := mem_map.mp mem
      exact fingerprint_none.mp fresh e there same
    rcases guarded_some notice with ⟨_,is,rfl⟩ | ⟨unmet,_,_⟩
    · cases is
      rcases guarded_some audit with ⟨_,is,_⟩ | ⟨unmet,_,_⟩
      · cases is
        rfl
      cases unmet
    rw [decide_eq_true rfl,Bool.true_and,Bool.not_eq_false',contains_iff_mem] at unmet
    exact absurd unmet unnoticed
  left
  rcases guarded_some notice with ⟨met,_,_⟩ | ⟨_,rfl,rfl⟩
  · cases met
  rcases guarded_some audit with ⟨met,_,_⟩ | ⟨_,rfl,_⟩
  · cases met
  exact ⟨nonces,rfl,rfl⟩

theorem received_kept : Ledger after ∧ Grows o after ∧ (counts[1]? = some 1 → after.fingerprint q.event = some q.body) := by
  rcases received_cases ledger done with ⟨nonces,rfl,is⟩ | ⟨fresh,nonces,rfl⟩
  · refine ⟨⟨ledger.events,ledger.notices,ledger.audits⟩,fun _ _ known => known,fun other => ?_⟩
    rw [is] at other
    cases other
  have base : Ledger { o with nonces := nonces } := ⟨ledger.events,ledger.notices,ledger.audits⟩
  exact ⟨record_ledger base fresh,record_grows (o := { o with nonces := nonces }),fun _ => record_own base fresh⟩
end

theorem serve_kept (ledger : Ledger o) : Ledger (o.serve now fine i).1 ∧ Grows o (o.serve now fine i).1 ∧
      ((o.serve now fine i).2 = .answered true → i.stage ≠ .answered true → (o.serve now fine i).1.fingerprint i.request.event = some i.request.body) := by
  unfold Operations.serve
  split
  · refine ⟨ledger,Grows.refl o,fun is _ => ?_⟩
    revert is
    split
    · split <;> exact nofun
    exact nofun
  · refine ⟨ledger,Grows.refl o,fun is _ => ?_⟩
    revert is
    split <;> exact nofun
  · split
    · exact ⟨ledger,Grows.refl o,nofun⟩
    · rename_i committed
      obtain ⟨kept,grows,own⟩ := received_kept ledger committed
      refine ⟨kept,grows,fun is _ => ?_⟩
      revert is
      split
      · exact fun _ => own ‹_›
      exact nofun
  · refine ⟨ledger,Grows.refl o,fun is _ => ?_⟩
    cases known : decide (o.fingerprint i.request.event = some i.request.body) with
    | true => exact of_decide_eq_true known
    | false =>
      rw [known] at is
      cases is
  rename_i ok at_
  refine ⟨ledger,Grows.refl o,fun is other => ?_⟩
  rw [at_] at other
  exact absurd is other
end

def Pc.posted : Pc → Bool
  | .claim | .post _ => false
  | _ => true

structure Sound (w : World) : Prop where
  ledger : Ledger w.operations
  rows : Keyed Row.id w.rows
  runs : Keyed Run.name w.runs
  asked : ∀ i ∈ w.intakes, i.request ∈ w.requests
  answered : ∀ i ∈ w.intakes, i.stage = .answered true → w.operations.fingerprint i.request.event = some i.request.body
  sent : ∀ q ∈ w.requests, ∃ run ∈ w.runs, run.name = q.run ∧ run.pc.posted = true ∧ ∀ row, run.pc.row = some row → row.id = q.event ∧ row.payload = q.body
  kept : ∀ run ∈ w.runs, ∀ row, run.pc.row = some row → ∃ held ∈ w.rows, held.id = row.id ∧ held.payload = row.payload
  delivering : ∀ run ∈ w.runs, ∀ row, run.pc = .deliver row → w.operations.fingerprint row.id = some row.payload
  delivered : ∀ row ∈ w.rows, row.status = .delivered → w.operations.fingerprint row.id = some row.payload

structure Held (w : World) : Prop where
  pending : ∀ row ∈ w.rows, row.status = .pending → row.attempts < maxAttempts
  leased : ∀ row ∈ w.rows, row.status = .leased → w.working row = true ∨ row.id ∈ w.crashed
  claims : ∀ row ∈ w.rows, row.attempts ≤ maxAttempts ∨ row.id ∈ w.crashed

variable {w : World} {name id : Nat} {pc : Pc} {run : Run} {row : Row}

theorem run_found (found : w.run name = some run) : run ∈ w.runs ∧ run.name = name := find_some found

theorem mem_goes (sound : Sound w) (found : w.run name = some run) (mem : other ∈ (w.goes name pc).runs) :
    (other ∈ w.runs ∧ other.name ≠ name) ∨ other = { run with pc := pc } := by
  rcases mem_amend.mp mem with apart | ⟨old,there,named,rfl⟩
  · exact .inl apart
  obtain ⟨here,same⟩ := run_found found
  cases sound.runs.unique there here (named.trans same.symm)
  exact .inr rfl

theorem goes_own (found : w.run name = some run) : { run with pc := pc } ∈ (w.goes name pc).runs :=
  mem_amend.mpr (.inr ⟨run,(run_found found).1,(run_found found).2,rfl⟩)

theorem goes_other (mem : other ∈ w.runs) (apart : other.name ≠ name) : other ∈ (w.goes name pc).runs :=
  mem_amend.mpr (.inl ⟨mem,apart⟩)

theorem goes_sound (sound : Sound w) (found : w.run name = some run)
    (kept : ∀ row, pc.row = some row → ∃ held ∈ w.rows, held.id = row.id ∧ held.payload = row.payload)
    (sent : run.pc.posted → pc.posted ∧ ∀ row, pc.row = some row → run.pc.row = some row)
    (delivering : ∀ row, pc = .deliver row → w.operations.fingerprint row.id = some row.payload) : Sound (w.goes name pc) where
  ledger := sound.ledger
  rows := sound.rows
  runs := sound.runs.amend _ fun _ _ _ => rfl
  asked := sound.asked
  answered := sound.answered
  sent q mem := by
    obtain ⟨sender,there,named,posted,agrees⟩ := sound.sent q mem
    by_cases own : sender.name = name
    · cases sound.runs.unique there (run_found found).1 (own.trans (run_found found).2.symm)
      obtain ⟨still,inherits⟩ := sent posted
      exact ⟨_,goes_own found,named,still,fun row is => agrees row (inherits row is)⟩
    exact ⟨sender,goes_other there own,named,posted,agrees⟩
  kept other mem row is := by
    rcases mem_goes sound found mem with ⟨old,_⟩ | rfl
    · exact sound.kept other old row is
    exact kept row is
  delivering other mem row is := by
    rcases mem_goes sound found mem with ⟨old,_⟩ | rfl
    · exact sound.delivering other old row is
    exact delivering row is
  delivered := sound.delivered

theorem onward_sound (sound : Sound w) (found : w.run name = some run) (posted : run.pc.posted → pc.posted)
    (inherits : ∀ row, pc.row = some row → run.pc.row = some row)
    (delivering : ∀ row, pc = .deliver row → w.operations.fingerprint row.id = some row.payload) : Sound (w.goes name pc) :=
  goes_sound sound found (fun row is => sound.kept run (run_found found).1 row (inherits row is)) (fun was => ⟨posted was,inherits⟩) delivering

theorem update_sound (sound : Sound w) (same : ∀ row, (change row).id = row.id ∧ (change row).payload = row.payload)
    (delivered : ∀ row ∈ w.rows, row.id = id → (change row).status = .delivered → w.operations.fingerprint row.id = some row.payload) :
    Sound (w.update id change) where
  ledger := sound.ledger
  rows := sound.rows.amend _ fun row _ _ => (same row).1
  runs := sound.runs
  asked := sound.asked
  answered := sound.answered
  sent := sound.sent
  kept other mem row is := by
    obtain ⟨held,there,named,equal⟩ := sound.kept other mem row is
    by_cases own : held.id = id
    · exact ⟨change held,mem_amend.mpr (.inr ⟨held,there,own,rfl⟩),(same held).1.trans named,(same held).2.trans equal⟩
    exact ⟨held,mem_amend.mpr (.inl ⟨there,own⟩),named,equal⟩
  delivering := sound.delivering
  delivered row mem is := by
    rcases mem_amend.mp mem with ⟨old,_⟩ | ⟨old,there,named,rfl⟩
    · exact sound.delivered row old is
    rw [(same old).1,(same old).2]
    exact delivered old there named is
end LedgeTopOps.ViewerEvents
