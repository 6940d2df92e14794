import LedgeTopOps.ThumbnailHandoff
import LedgeTopOps.FlowLists

namespace LedgeTopOps.ThumbnailHandoff
open FlowLists
open List hiding after
open StepRuns

-- A pending job whose publication is recorded: only a message can bring it back to the
-- consumer, unless the renderer alone can do it.
def Job.marked (job : Job) : Bool := job.status = .pending && job.published.isSome && job.error ≠ some pixelLimit
def Job.unmarked (job : Job) : Bool := job.status = .pending && job.published.isNone && job.error ≠ some pixelLimit
def Message.about (key : Key) (etag : Nat) (m : Message) : Bool := m.key = key && m.etag = etag

def carried (queue : List Message) (flows : List Pc) (key : Key) (etag : Nat) : Bool :=
  queue.any (·.about key etag) || flows.any fun pc => pc.message.any (·.about key etag)

-- A pending job has a message for its version on the way, or the republisher will find it, or only the renderer can
-- do it.
def Handed (w : World) : Prop := ∀ job ∈ w.store.jobs, job.status = .pending →
  carried w.store.queue w.flows job.key job.etag = true ∨ job.published = none ∨ job.error = some pixelLimit

def Covered (w : World) : Prop := ∀ job ∈ w.store.jobs, job.marked = true → carried w.store.queue w.flows job.key job.etag = true

-- Calls that can leave a row marked without a message: a mark over a row that waits for the republisher, and the two
-- that set a published row back to pending.
def Pc.risk : Pc → Option (Key × Nat × (Job → Bool))
  | .mark sender key etag => some (key,etag,fun job => sender.marks job && job.unmarked)
  | .resetFailure e => some (e.key,e.etag,fun job => job.status = .failed && job.error = some .queuePublishFailed && job.published.isSome)
  | .regenerate key etag => some (key,etag,fun job => job.status ≠ .failed && job.published.isSome)
  | _ => none

def World.released (w : World) (index : Nat) (m : Message) : Bool :=
  w.store.jobs.all fun job => !(m.about job.key job.etag && job.marked) || carried w.store.queue (w.flows.set index .halted) job.key job.etag

def World.spared (w : World) (index : Nat) (reply : Reply) (pc : Pc) : Bool :=
  match pc.risk with
  | some (key,etag,risky) => reply = .failed false || !w.store.matching key etag risky || carried w.store.queue w.flows key etag
  | none => match pc with
    | .answer m outcome => (outcome.again m.final && !m.final) || w.released index m
    | _ => true

def World.survives (w : World) (index : Nat) (pc : Pc) : Bool :=
  match pc.message with
  | some m => !m.final || w.released index m
  | none => true

def spared (w : World) : Action → Bool
  | .reply index reply => (w.flows[index]?).all (w.spared index reply)
  | .crash index => (w.flows[index]?).all (w.survives index)
  | _ => true

theorem carried_iff : carried queue flows key etag ↔ (∃ m ∈ queue, m.about key etag) ∨ ∃ pc ∈ flows, pc.message.any (·.about key etag) := by
  unfold carried
  rw [Bool.or_eq_true,any_eq_true,any_eq_true]

theorem carried_mono (queue : ∀ m ∈ earlier, m ∈ later) (flows : ∀ pc ∈ left, pc.message.any (·.about key etag) → ∃ q ∈ right, q.message.any (·.about key etag))
    (before : carried earlier left key etag) : carried later right key etag := by
  obtain ⟨m,waits,about⟩ | ⟨pc,mem,handles⟩ := carried_iff.mp before
  · exact carried_iff.mpr (.inl ⟨m,queue m waits,about⟩)
  exact carried_iff.mpr (.inr (flows pc mem handles))

theorem moved_carried {flows : List Pc} (here : flows[index]? = some pc) (goes : ∀ m, pc.message = some m → after.message = some m) :
    ∀ q ∈ flows, q.message.any (·.about key etag) → ∃ q' ∈ flows.set index after, q'.message.any (·.about key etag) := by
  intro q mem handles
  obtain rfl | still := moved_still after here mem
  · refine ⟨after,moved_here here,?_⟩
    cases message : q.message with
    | none => rw [message] at handles; cases handles
    | some m => rw [goes m message]; rwa [message] at handles
  exact ⟨q,still,handles⟩

structure Keeps (s t : Store) (m : Option Message) : Prop where
  queue : ∀ m ∈ s.queue, m ∈ t.queue
  jobs : ∀ job ∈ t.jobs, job.marked = true →
    (∃ old ∈ s.jobs, old.marked = true ∧ old.key = job.key ∧ old.etag = job.etag) ∨ m.any (·.about job.key job.etag) = true

theorem Keeps.refl (s : Store) (m : Option Message) : Keeps s s m :=
  ⟨fun _ mem => mem,fun job mem marked => .inl ⟨job,mem,marked,rfl,rfl⟩⟩

theorem chosen_iff : chosen key etag condition job ↔ job.key = key ∧ job.etag = etag ∧ condition job := by
  simp [chosen,and_assoc]

theorem matching_iff {s : Store} : s.matching key etag condition ↔ ∃ job ∈ s.jobs, job.key = key ∧ job.etag = etag ∧ condition job := by
  unfold Store.matching
  rw [any_eq_true]
  exact exists_congr fun job => and_congr_right fun _ => chosen_iff

theorem update_cases {s : Store} (mem : job ∈ (s.update key etag condition change).jobs) :
    job ∈ s.jobs ∨ ∃ old ∈ s.jobs, old.key = key ∧ old.etag = etag ∧ condition old ∧ job = change old := by
  obtain ⟨old,there,rfl⟩ := mem_map.mp mem
  split
  · rename_i picked
    obtain ⟨same,version,met⟩ := chosen_iff.mp picked
    exact .inr ⟨old,there,same,version,met,rfl⟩
  exact .inl there

theorem update_keeps {s : Store} (quiet : ∀ job, condition job → (change job).marked → job.marked)
    (same : ∀ job, (change job).key = job.key ∧ (change job).etag = job.etag) : Keeps s (s.update key etag condition change) m := by
  refine ⟨fun _ mem => mem,fun job mem marked => .inl ?_⟩
  obtain there | ⟨old,there,_,_,met,rfl⟩ := update_cases mem
  · exact ⟨job,there,marked,rfl,rfl⟩
  exact ⟨old,there,quiet old met marked,(same old).1.symm,(same old).2.symm⟩

theorem update_handled {s : Store} (same : ∀ job, (change job).key = job.key ∧ (change job).etag = job.etag) :
    Keeps s (s.update m.key m.etag condition change) (some m) := by
  refine ⟨fun _ mem => mem,fun job mem marked => ?_⟩
  obtain there | ⟨old,there,key,etag,_,rfl⟩ := update_cases mem
  · exact .inl ⟨job,there,marked,rfl,rfl⟩
  refine .inr ?_
  simp [Message.about,(same old).1,(same old).2,key,etag]

theorem unmarked_job {e : Event} : e.job.marked = false := rfl

theorem register_keeps (e : Event) : Keeps s (s.register e) m := by
  unfold Store.register
  split
  · refine ⟨fun _ mem => mem,fun job mem marked => .inl ?_⟩
    obtain there | fresh := mem_append.mp mem
    · exact ⟨job,there,marked,rfl,rfl⟩
    rw [mem_singleton.mp fresh,unmarked_job] at marked; cases marked
  refine ⟨fun _ mem => mem,fun job mem marked => .inl ?_⟩
  obtain ⟨old,there,rfl⟩ := mem_map.mp mem
  split at marked
  · rename_i newer
    rw [if_pos newer]
    unfold Event.over at marked ⊢
    split at marked
    · rename_i version
      rw [if_pos version]
      exact ⟨old,there,marked,rfl,rfl⟩
    rw [unmarked_job] at marked; cases marked
  rename_i older
  rw [if_neg older]
  exact ⟨old,there,marked,rfl,rfl⟩

theorem send_keeps : Keeps s (s.send key etag) m :=
  ⟨fun _ mem => mem_append_left _ mem,fun job mem marked => .inl ⟨job,mem,marked,rfl,rfl⟩⟩

def Calm (s t : Store) (pc after : Pc) : Prop := Keeps s t pc.message ∧ ∀ m, pc.message = some m → after.message = some m

theorem done_calm (ran : done u goes reply = some (t,after)) (keeps : Keeps s u pc.message)
    (message : ∀ m, pc.message = some m → goes.message = some m) : Calm s t pc after := by
  cases reply <;> cases ran
  exact ⟨keeps,message⟩

theorem asked_calm (ran : asked s goes reply = some (t,after)) (message : ∀ yes m, pc.message = some m → (goes yes).message = some m) : Calm s t pc after := by
  cases reply <;> cases ran
  exact ⟨.refl s _,message _⟩

theorem attempted_calm (ran : attempted s u goes fails reply = some (t,after)) (keeps : Keeps s u pc.message)
    (message : ∀ m, pc.message = some m → goes.message = some m ∧ fails.message = some m) : Calm s t pc after := by
  cases reply with
  | ok => cases ran; exact ⟨keeps,fun m is => (message m is).1⟩
  | failed applied =>
    cases ran
    refine ⟨?_,fun m is => (message m is).2⟩
    cases applied
    · exact .refl s _
    · exact keeps
  | _ => cases ran

theorem message_if [Decidable condition] {left right : Pc} (one : left.message = some m) (two : right.message = some m) :
    (if condition then left else right).message = some m := by
  split
  · exact one
  exact two

theorem of_update (quiet : ∀ job : Job, condition job → (change job).status ≠ .pending ∨ (change job).published = none)
    (same : ∀ job : Job, (change job).key = job.key ∧ (change job).etag = job.etag) : Keeps s (s.update key etag condition change) m :=
  update_keeps (fun job met marked => by
    have waits : (change job).status = .pending ∧ (change job).published.isSome := by
      simp only [Job.marked,Bool.and_eq_true,decide_eq_true_eq] at marked
      exact marked.1
    obtain moved | cleared := quiet job met
    · exact absurd waits.1 moved
    rw [cleared] at waits; cases waits.2) same

theorem call_calm (safe : pc.risk = none) (stays : ∀ m outcome, pc ≠ .answer m outcome) (ran : pc.call sources s reply = some (t,after)) :
    Calm s t pc after := by
  cases pc with
  | mark | resetFailure | regenerate => cases safe
  | answer m outcome => exact absurd rfl (stays m outcome)
  | halted => cases ran
  | register e => exact done_calm ran (register_keeps e) nofun
  | emptySource | sendFailed => exact done_calm ran (of_update (fun _ _ => .inl nofun) fun _ => ⟨rfl,rfl⟩) nofun
  | send => exact attempted_calm ran send_keeps nofun
  | jobRead =>
    refine done_calm ran (.refl s _) fun _ is => ?_
    cases is
    split
    · rfl
    split
    · rfl
    · rfl
    exact message_if rfl (message_if rfl rfl)
  | jobHead | jobRaced => exact done_calm ran (.refl s _) fun _ is => is
  | jobClaim =>
    refine done_calm ran (update_handled fun _ => ⟨rfl,rfl⟩) fun _ is => ?_
    cases is
    split
    · exact message_if rfl rfl
    exact message_if rfl rfl
  | jobWork =>
    cases reply with
    | failed => cases ran; exact ⟨.refl _ _,fun _ is => is⟩
    | worked result =>
      cases result with
      | container =>
        cases ran
        refine ⟨.refl _ _,fun _ is => ?_⟩
        cases is
        exact message_if rfl (message_if rfl rfl)
      | invalid | rendered => cases ran; exact ⟨.refl _ _,fun _ is => is⟩
    | ok | flag | storing => cases ran
  | jobReturn => exact attempted_calm ran (update_handled fun _ => ⟨rfl,rfl⟩) fun _ is => ⟨is,is⟩
  | jobStore =>
    cases reply with
    | failed => cases ran; exact ⟨.refl _ _,fun _ is => is⟩
    | storing result => cases result <;> cases ran <;> exact ⟨.refl _ _,fun _ is => is⟩
    | ok | flag | worked => cases ran
  | jobAdopt =>
    refine attempted_calm ran (update_handled fun _ => ⟨rfl,rfl⟩) fun _ is => ⟨?_,is⟩
    cases is
    exact message_if rfl (message_if rfl rfl)
  | jobOccupied | jobLost =>
    refine attempted_calm ran (.refl s _) fun _ is => ⟨?_,is⟩
    cases is
    exact message_if rfl rfl
  | jobComplete =>
    refine attempted_calm ran (update_handled fun _ => ⟨rfl,rfl⟩) fun _ is => ⟨?_,is⟩
    cases is
    exact message_if rfl rfl
  | jobFail =>
    cases reply with
    | ok =>
      cases ran
      refine ⟨update_handled fun _ => ⟨rfl,rfl⟩,fun _ is => ?_⟩
      cases is
      exact message_if rfl rfl
    | failed =>
      cases ran
      refine ⟨?_,fun _ is => ?_⟩
      · split
        · exact update_handled fun _ => ⟨rfl,rfl⟩
        · exact .refl s _
      cases is
      exact message_if rfl rfl
    | _ => cases ran
  | jobTidy => exact attempted_calm ran (.refl s _) fun _ is => ⟨is,is⟩
  | deadMark =>
    refine done_calm ran (of_update (fun job failed => .inl fun waits => ?_) fun _ => ⟨rfl,rfl⟩) nofun
    exact nomatch (of_decide_eq_true failed).symm.trans waits
  | claimRead | drainRead | drainDelete => exact asked_calm ran nofun
  | claimReject | claimLease | expiredExhaust =>
    exact done_calm ran (of_update (fun _ _ => .inl nofun) fun _ => ⟨rfl,rfl⟩) nofun
  | failWrite =>
    refine done_calm ran (of_update (fun _ _ => ?_) fun _ => ?_) nofun
    · split
      · exact .inl nofun
      · exact .inr rfl
    split <;> exact ⟨rfl,rfl⟩
  | transientClaim | expiredClaim => exact done_calm ran (of_update (fun _ _ => .inr rfl) fun _ => ⟨rfl,rfl⟩) nofun
  | expiredRemove =>
    exact done_calm ran ⟨fun _ mem => mem,fun job mem marked => .inl ⟨job,(mem_filter.mp mem).1,marked,rfl,rfl⟩⟩ nofun
  | _ =>
    exact done_calm ran (.refl s _) nofun

theorem Covered.calm (covered : Covered w) (here : w.flows[index]? = some pc) (calm : Calm w.store t pc after) : Covered ⟨t,w.flows.set index after⟩ := by
  intro job mem marked
  obtain ⟨old,there,was,key,etag⟩ | about := calm.1.jobs job mem marked
  · rw [←key,←etag]
    exact carried_mono calm.1.queue (moved_carried here calm.2) (covered old there was)
  refine carried_mono calm.1.queue (moved_carried here calm.2) (carried_iff.mpr (.inr ⟨pc,List.mem_of_getElem? here,?_⟩))
  exact about

structure Exposed (s t : Store) (key : Key) (etag : Nat) (risky : Job → Bool) : Prop where
  queue : t.queue = s.queue
  marks : s.matching key etag risky = true → ∃ job ∈ t.jobs, job.key = key ∧ job.etag = etag ∧ job.marked = true
  jobs : ∀ job ∈ t.jobs, job.marked = true →
    (∃ old ∈ s.jobs, old.marked = true ∧ old.key = job.key ∧ old.etag = job.etag) ∨ (job.key = key ∧ job.etag = etag ∧ s.matching key etag risky = true)

theorem update_exposed {s : Store} (marks : ∀ job, risky job → condition job ∧ (change job).marked)
    (back : ∀ job, condition job → (change job).marked → job.marked ∨ risky job)
    (same : ∀ job, (change job).key = job.key ∧ (change job).etag = job.etag) : Exposed s (s.update key etag condition change) key etag risky := by
  refine ⟨rfl,fun atRisk => ?_,fun job mem marked => ?_⟩
  · obtain ⟨job,there,isKey,isEtag,risks⟩ := matching_iff.mp atRisk
    obtain ⟨met,marked⟩ := marks job risks
    refine ⟨change job,mem_map.mpr ⟨job,there,if_pos (chosen_iff.mpr ⟨isKey,isEtag,met⟩)⟩,?_,?_,marked⟩
    · exact (same job).1.trans isKey
    exact (same job).2.trans isEtag
  obtain there | ⟨old,there,isKey,isEtag,met,rfl⟩ := update_cases mem
  · exact .inl ⟨job,there,marked,rfl,rfl⟩
  obtain was | risks := back old met marked
  · exact .inl ⟨old,there,was,(same old).1.symm,(same old).2.symm⟩
  exact .inr ⟨(same old).1.trans isKey,(same old).2.trans isEtag,matching_iff.mpr ⟨old,there,isKey,isEtag,risks⟩⟩

theorem marked_iff : Job.marked job ↔ job.status = .pending ∧ job.published.isSome ∧ job.error ≠ some pixelLimit := by
  simp [Job.marked,and_assoc]

theorem unmarked_iff : Job.unmarked job ↔ job.status = .pending ∧ job.published = none ∧ job.error ≠ some pixelLimit := by
  simp [Job.unmarked,and_assoc]

theorem marked_fields (sender : Sender) (now : Nat) (job : Job) :
    (sender.marked now job).status = job.status ∧ (sender.marked now job).error = job.error ∧ (sender.marked now job).published.isSome ∧
      (sender.marked now job).key = job.key ∧ (sender.marked now job).etag = job.etag := by
  cases sender <;> exact ⟨rfl,rfl,rfl,rfl,rfl⟩

theorem mark_exposed (sender : Sender) :
    Exposed s (s.update key etag sender.marks (sender.marked s.now)) key etag fun job => sender.marks job && job.unmarked := by
  refine update_exposed (fun job risks => ?_) (fun job met marked => ?_) fun job => ?_
  · obtain ⟨met,unmarked⟩ := Bool.and_eq_true_iff.mp risks
    obtain ⟨status,error,published,_⟩ := marked_fields sender s.now job
    obtain ⟨pending,_,code⟩ := unmarked_iff.mp unmarked
    exact ⟨met,marked_iff.mpr ⟨status.trans pending,published,by rw [error]; exact code⟩⟩
  · obtain ⟨status,error,_⟩ := marked_fields sender s.now job
    obtain ⟨pending,_,code⟩ := marked_iff.mp marked
    rw [status] at pending
    rw [error] at code
    cases published : job.published with
    | some => exact .inl (marked_iff.mpr ⟨pending,by rw [published]; rfl,code⟩)
    | none => exact .inr (Bool.and_eq_true_iff.mpr ⟨met,unmarked_iff.mpr ⟨pending,published,code⟩⟩)
  exact (marked_fields sender s.now job).2.2.2

theorem risk_call {pc after : Pc} (risk : pc.risk = some (key,etag,risky)) (ran : pc.call sources s reply = some (t,after)) :
    pc.message = none ∧ after.message = none ∧ ((reply = .failed false ∧ t = s) ∨ (reply ≠ .failed false ∧ Exposed s t key etag risky)) := by
  cases pc with
  | mark sender _ _ =>
    cases risk
    cases reply with
    | ok => cases ran; exact ⟨rfl,rfl,.inr ⟨nofun,mark_exposed sender⟩⟩
    | failed applied =>
      cases ran
      refine ⟨rfl,by cases sender <;> rfl,?_⟩
      cases applied
      · exact .inl ⟨rfl,rfl⟩
      · exact .inr ⟨nofun,mark_exposed sender⟩
    | _ => cases ran
  | resetFailure =>
    cases risk
    cases reply <;> cases ran
    refine ⟨rfl,by split <;> rfl,.inr ⟨nofun,update_exposed (fun job risks => ?_) (fun job met marked => ?_) fun _ => ⟨rfl,rfl⟩⟩⟩
    · obtain ⟨met,published⟩ := Bool.and_eq_true_iff.mp risks
      exact ⟨met,marked_iff.mpr ⟨rfl,published,nofun⟩⟩
    exact .inr (Bool.and_eq_true_iff.mpr ⟨met,(marked_iff.mp marked).2.1⟩)
  | regenerate _ _ =>
    cases risk
    cases reply <;> cases ran
    refine ⟨rfl,rfl,.inr ⟨nofun,update_exposed (fun job risks => ?_) (fun job met marked => ?_) fun _ => ⟨rfl,rfl⟩⟩⟩
    · obtain ⟨met,published⟩ := Bool.and_eq_true_iff.mp risks
      exact ⟨met,marked_iff.mpr ⟨rfl,published,nofun⟩⟩
    exact .inr (Bool.and_eq_true_iff.mpr ⟨met,(marked_iff.mp marked).2.1⟩)
  | _ => cases risk

theorem idle_carried (idle : after.message = none) (carries : carried queue (flows.set index after) key etag) : carried queue flows key etag := by
  refine carried_mono (fun _ mem => mem) (fun q mem handles => ?_) carries
  obtain rfl | ⟨_,_,there⟩ := moved_member mem
  · rw [idle] at handles; cases handles
  exact ⟨q,List.mem_of_getElem? there,handles⟩

theorem Covered.exposed (covered : Covered w) (here : w.flows[index]? = some pc) (idle : pc.message = none) (stays : after.message = none)
    (exposed : Exposed w.store t key etag risky) :
    Covered ⟨t,w.flows.set index after⟩ ↔ w.store.matching key etag risky = false ∨ carried w.store.queue w.flows key etag := by
  constructor
  · intro still
    by_cases risks : w.store.matching key etag risky
    · obtain ⟨job,mem,rfl,rfl,marked⟩ := exposed.marks risks
      have carries := still job mem marked
      rw [show (World.mk t (w.flows.set index after)).store.queue = w.store.queue from exposed.queue] at carries
      exact .inr (idle_carried stays carries)
    exact .inl (Bool.eq_false_iff.mpr risks)
  intro spare job mem marked
  have before : carried w.store.queue w.flows job.key job.etag := by
    obtain ⟨old,there,was,isKey,isEtag⟩ | ⟨isKey,isEtag,risks⟩ := exposed.jobs job mem marked
    · rw [←isKey,←isEtag]; exact covered old there was
    obtain none' | carries := spare
    · rw [risks] at none'; cases none'
    rw [isKey,isEtag]; exact carries
  exact carried_mono (fun m there => exposed.queue ▸ there) (moved_carried here fun m is => absurd (idle.symm.trans is) nofun) before

theorem Covered.released (covered : Covered w) (here : w.flows[index]? = some pc) (holds : pc.message = some m) (jobs : t.jobs = w.store.jobs)
    (queue : t.queue = w.store.queue) : Covered ⟨t,w.flows.set index .halted⟩ ↔ w.released index m := by
  unfold World.released
  rw [all_eq_true]
  constructor
  · intro still job mem
    by_cases waits : (m.about job.key job.etag && job.marked)
    · have carries := still job (by rw [jobs]; exact mem) (Bool.and_eq_true_iff.mp waits).2
      rw [queue] at carries
      rw [carries,Bool.or_true]
    rw [Bool.eq_false_iff.mpr waits]; rfl
  intro free job mem marked
  rw [jobs] at mem
  rw [queue]
  by_cases about : m.about job.key job.etag
  · simpa [about,marked] using free job mem
  -- Who carries the job is not the flow of this message.
  · refine carried_mono (fun _ there => there) (fun q there handles => ⟨q,?_,handles⟩) (covered job mem marked)
    obtain rfl | still := moved_still _ here there
    · rw [holds] at handles
      exact absurd handles about
    exact still

theorem Covered.returned (covered : Covered w) (here : w.flows[index]? = some pc) (holds : pc.message = some m) (more : m.final = false) :
    Covered ⟨w.store.giveBack m,w.flows.set index .halted⟩ := by
  have back : w.store.giveBack m = { w.store with queue := m :: w.store.queue } := if_neg (by simpa [Message.final] using more)
  rw [back]
  intro job mem marked
  obtain ⟨other,waits,about⟩ | ⟨q,there,handles⟩ := carried_iff.mp (covered job mem marked)
  · exact carried_iff.mpr (.inl ⟨other,.tail _ waits,about⟩)
  obtain rfl | still := moved_still .halted here there
  · rw [holds] at handles
    exact carried_iff.mpr (.inl ⟨m,.head _,handles⟩)
  exact carried_iff.mpr (.inr ⟨q,still,handles⟩)

theorem given_away (last : m.final) (s : Store) : (s.giveBack m).jobs = s.jobs ∧ (s.giveBack m).queue = s.queue := by
  have gone : s.giveBack m = { s with dead := m :: s.dead } := if_pos (of_decide_eq_true last)
  rw [gone]
  exact ⟨rfl,rfl⟩

theorem Covered.given (covered : Covered w) (here : w.flows[index]? = some pc) (holds : pc.message = some m) :
    Covered ⟨w.store.giveBack m,w.flows.set index .halted⟩ ↔ (!m.final || w.released index m) := by
  cases last : m.final with
  | true =>
    obtain ⟨jobs,queue⟩ := given_away last w.store
    exact covered.released here holds jobs queue
  | false => exact ⟨fun _ => rfl,fun _ => covered.returned here holds last⟩

theorem Covered.answered (covered : Covered w) (here : w.flows[index]? = some (.answer m outcome))
    (ran : Pc.call sources w.store (.answer m outcome) reply = some (t,after)) :
    Covered ⟨t,w.flows.set index after⟩ ↔ ((outcome.again m.final && !m.final) || w.released index m) := by
  cases reply <;> cases ran
  split
  · rename_i again
    rw [again,Bool.true_and]
    exact covered.given here rfl
  rename_i acknowledged
  rw [Bool.eq_false_iff.mpr acknowledged,Bool.false_and,Bool.false_or]
  exact covered.released here rfl rfl rfl

theorem Covered.abandoned (covered : Covered w) (here : w.flows[index]? = some pc) :
    Covered ⟨w.store.abandon pc,w.flows.set index .halted⟩ ↔ w.survives index pc := by
  unfold Store.abandon World.survives
  cases holds : pc.message with
  | some => exact covered.given here holds
  | none =>
    refine ⟨fun _ => rfl,fun _ => covered.calm here ⟨?_,fun m is => absurd (holds.symm.trans is) nofun⟩⟩
    dsimp only
    split
    · exact ⟨fun _ there => there,fun job there marked => .inl ⟨job,there,marked,rfl,rfl⟩⟩
    exact .refl _ _

theorem Covered.replied (covered : Covered w) (here : w.flows[index]? = some pc) (ran : pc.call sources w.store reply = some (t,after)) :
    Covered ⟨t,w.flows.set index after⟩ ↔ w.spared index reply pc := by
  unfold World.spared
  cases risk : pc.risk with
  | some at' =>
    obtain ⟨_,_,_⟩ := at'
    obtain ⟨idle,stays,⟨failed,same⟩ | ⟨took,exposed⟩⟩ := risk_call risk ran
    · subst same
      refine ⟨fun _ => by simp [failed],fun _ => covered.calm here ⟨.refl _ _,fun m is => absurd (idle.symm.trans is) nofun⟩⟩
    rw [covered.exposed here idle stays exposed]
    simp [took]
  | none =>
    dsimp only
    split
    · exact covered.answered here ran
    rename_i other
    exact ⟨fun _ => rfl,fun _ => covered.calm here (call_calm risk other ran)⟩

theorem Covered.begun (covered : Covered w) (pc : Pc) : Covered (w.begin pc) := fun job mem marked =>
  carried_mono (fun _ there => there) (fun q there handles => ⟨q,mem_append_left _ there,handles⟩) (covered job mem marked)

theorem Covered.delivered (covered : Covered w) (found : w.store.queue[index]? = some m) (again : Bool) :
    Covered ⟨{ w.store with queue := if again then w.store.queue.set index m.next else w.store.queue.eraseIdx index },
      w.flows++[.jobRead m.next]⟩ := by
  intro job mem marked
  obtain ⟨other,waits,about⟩ | ⟨q,there,handles⟩ := carried_iff.mp (covered job mem marked)
  · by_cases same : other = m
    · subst same
      exact carried_iff.mpr (.inr ⟨.jobRead other.next,mem_append_right _ (.head _),about⟩)
    · obtain ⟨place,at'⟩ := List.mem_iff_getElem?.mp waits
      have apart : index ≠ place := fun same' => by subst same'; exact same (Option.some.inj (at'.symm.trans found))
      refine carried_iff.mpr (.inl ⟨other,?_,about⟩)
      cases again with
      | true => exact List.mem_of_getElem? (moved_other apart.symm at')
      | false => exact List.mem_eraseIdx_iff_getElem?.mpr ⟨place,apart.symm,at'⟩
  exact carried_iff.mpr (.inr ⟨q,mem_append_left _ there,handles⟩)

theorem next_covered (covered : Covered w) (ran : next sources w action = some v) : Covered v ↔ spared w action := by
  cases action with
  | tick => cases ran; exact ⟨fun _ => rfl,fun _ => covered⟩
  | deliver _ again =>
    obtain ⟨m,found,same⟩ := Option.map_eq_some_iff.mp ran
    subst same
    exact ⟨fun _ => rfl,fun _ => covered.delivered found again⟩
  | bury =>
    obtain ⟨m,_,same⟩ := Option.map_eq_some_iff.mp ran
    subst same
    exact ⟨fun _ => rfl,fun _ => covered.begun (.deadMark m)⟩
  | reply =>
    obtain ⟨_,here,called⟩ := Option.bind_eq_some_iff.mp ran
    obtain ⟨⟨t,_⟩,ran',same⟩ := Option.map_eq_some_iff.mp called
    subst same
    unfold spared
    dsimp only
    rw [here]
    exact covered.replied here ran'
  | crash =>
    obtain ⟨_,here,same⟩ := Option.map_eq_some_iff.mp ran
    subst same
    unfold spared
    dsimp only
    rw [here]
    exact covered.abandoned here
  | _ => cases ran; exact ⟨fun _ => rfl,fun _ => covered.begun _⟩

theorem covered_iff : Covered w ↔ Handed w := by
  constructor
  · intro covered job mem pending
    cases published : job.published with
    | none => exact .inr (.inl rfl)
    | some =>
      by_cases limited : job.error = some pixelLimit
      · exact .inr (.inr limited)
      exact .inl (covered job mem (marked_iff.mpr ⟨pending,by rw [published]; rfl,limited⟩))
  intro handed job mem marked
  obtain ⟨pending,published,code⟩ := marked_iff.mp marked
  obtain carries | unpublished | limited := handed job mem pending
  · exact carries
  · rw [unpublished] at published; cases published
  exact absurd limited code

def Step (sources : Key → Nat) (w : World) (action : Action) (v : World) : Prop := next sources w action = some v
def World.empty (now : Nat) : World := ⟨⟨now,[],[],[]⟩,[]⟩

theorem empty_covered : Covered (World.empty now) := forall_mem_nil _

def oneSource : Key → Nat := fun _ => 1
def published : List Action :=
  [.enqueue ['a'] 1 9 0 0,.reply 0 .ok,.reply 0 .ok,.reply 0 .ok,.reply 0 .ok,.reply 0 (.ok),.reply 0 .ok]

def handedWorld : World := (follow (next oneSource) (World.empty 0) published).getD (World.empty 0)

def failing : Nat → List Action
  | 0 => []
  | flow + 1 => failing flow++[.deliver 0 false,.reply (flow + 1) .ok,.crash (flow + 1)]
def deadLettered : List Action := published++[.tick 600]++failing 6

def lateMark : List Action :=
  [.enqueue ['a'] 1 9 0 0,.reply 0 .ok,.reply 0 .ok,.reply 0 .ok,.reply 0 .ok,.crash 0,.tick 400, .republish ['a'],.reply 1 .ok,.reply 1 .ok,
    .claim ['a'],.reply 2 (.flag true),.reply 2 .ok,.reply 2 .ok,.deliver 0 false,.reply 3 .ok,.reply 3 .ok,
    .fail ['a'] 1 (.other 0),.reply 4 .ok,.reply 4 .ok,.reply 4 (.failed false),.reply 1 .ok]

def resetMarked : List Action :=
  [.enqueue ['a'] 1 9 0 0,.reply 0 .ok,.reply 0 .ok,.reply 0 .ok,.reply 0 .ok,
    .enqueue ['a'] 1 9 0 0,.reply 1 .ok,.reply 1 .ok,.reply 1 .ok,.reply 1 .ok,.reply 1 .ok,.reply 1 .ok,
    .reply 0 (.failed false),.reply 0 .ok,.deliver 0 false,.reply 2 .ok,.reply 2 .ok,
    .enqueue ['a'] 1 9 0 0,.reply 3 .ok,.reply 3 .ok,.reply 3 .ok]

def World.stranded (w : World) : Bool :=
  w.store.jobs.any fun job => job.marked && !carried w.store.queue w.flows job.key job.etag

theorem stranded_iff : w.stranded ↔ ¬Handed w := by
  rw [←covered_iff]
  simp [World.stranded,Covered]

theorem strands (ran : (follow (next oneSource) (World.empty 0) actions).any World.stranded) :
    ∃ w, Runs (Step oneSource) (World.empty 0) actions w ∧ ¬Handed w := by
  cases reached : follow (next oneSource) (World.empty 0) actions with
  | none => rw [reached] at ran; cases ran
  | some w =>
    rw [reached] at ran
    exact ⟨w,Runs.of_follow reached,stranded_iff.mp ran⟩

end LedgeTopOps.ThumbnailHandoff
