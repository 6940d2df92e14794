import LedgeTopOps.ProjectOverlayHistory
import LedgeTopOps.FlowLists

namespace LedgeTopOps.ProjectOverlay
open List StepRuns FlowLists
open Option (map_eq_some_iff)

structure Counted (db : Db) (root : Root) (attachments revisions : Prop) : Prop where
  attachments : attachments → db.foreign root = []
  revisions : revisions → db.memoryRoot = none ∨ db.memoryRoot = some root

def Pc.knows (db : Db) (writes : List Root) : Pc → Prop
  | .uploadCommit r _ _ snapshot => r.expected ≤ db.memoryVersion ∧
      ∀ memory, db.memory = some memory → memory.version = r.expected → memory.snapshot = snapshot
  | .copyCommit r _ d => r.accepts d = true
  | .recoverReads r _ mark pending reads => mark ≤ writes.length ∧ ((∀ root ∈ writes.take (writes.length - mark), root = r.root) →
      Counted db r.root (.attachmentCount ∉ pending ∧ reads.excludedAttachmentCount = 0) (.revisionCount ∉ pending ∧ reads.memoryRevisionCount = 0))
  | .recoverCommit r plan mark => (plan.newRoot = r.root ∧ plan.action = r.action ∧ plan.oldRoot ≠ plan.newRoot) ∧ mark ≤ writes.length ∧
      ((∀ root ∈ writes.take (writes.length - mark), root = r.root) →
        Counted db r.root (plan.reads.excludedAttachmentCount = 0) (plan.reads.memoryRevisionCount = 0))
  | _ => True

section
variable {db after : Db} {pc : Pc} {expecting writing : List (Kind × Nat)}

theorem since_next (bound : mark ≤ writes.length) (all : ∀ other ∈ (root :: writes).take ((root :: writes).length - mark), other = own) :
    root = own ∧ ∀ other ∈ writes.take (writes.length - mark), other = own := by
  rw [length_cons,Nat.succ_sub bound,take_succ_cons] at all
  exact ⟨all root mem_cons_self,fun other mem => all other (mem_cons_of_mem _ mem)⟩

theorem Counted.later {attachments revisions : Prop} (counted : Counted db own attachments revisions)
    (commits : Commits db after expecting writing table key) (same : db.project.root = own) : Counted after own attachments revisions := by
  subst same
  exact ⟨fun holds => commits.foreign (counted.attachments holds),fun holds => commits.owner (counted.revisions holds)⟩

theorem knows_later (commits : Commits db after expecting writing table key) (knows : pc.knows db writes) : pc.knows after (db.project.root :: writes) := by
  cases pc with
  | uploadCommit =>
    refine ⟨Nat.le_trans knows.1 (commits.later .memory),fun memory found version => ?_⟩
    have more := commits.later .memory
    have versions : after.memoryVersion = memory.version := by rw [Db.memoryVersion,found]; rfl
    by_cases unchanged : after.memoryVersion = db.memoryVersion
    · exact knows.2 memory (by rw [←commits.same unchanged]; exact found) version
    have least := knows.1
    have most : db.memoryVersion ≤ after.memoryVersion := more
    omega
  | copyCommit => exact knows
  | recoverReads =>
    refine ⟨Nat.le_succ_of_le knows.1,fun all => ?_⟩
    obtain ⟨own,earlier⟩ := since_next knows.1 all
    exact (knows.2 earlier).later commits own
  | recoverCommit =>
    refine ⟨knows.1,Nat.le_succ_of_le knows.2.1,fun all => ?_⟩
    obtain ⟨own,earlier⟩ := since_next knows.2.1 all
    exact (knows.2.2 earlier).later commits own
  | _ => trivial

theorem knows_moved (knows : pc.knows db writes) : pc.knows { db with project := project } writes := by
  cases pc with
  | uploadCommit | copyCommit => exact knows
  | recoverReads => exact ⟨knows.1,fun all => ⟨(knows.2 all).attachments,(knows.2 all).revisions⟩⟩
  | recoverCommit => exact ⟨knows.1,knows.2.1,fun all => ⟨(knows.2.2 all).attachments,(knows.2.2 all).revisions⟩⟩
  | _ => trivial

theorem take_counted {r : Recover} {pending : List Field} {reads : Reads} (valid : Valid db) (field : Field)
    (counted : Counted db r.root (.attachmentCount ∉ pending ∧ reads.excludedAttachmentCount = 0) (.revisionCount ∉ pending ∧ reads.memoryRevisionCount = 0)) :
    Counted db r.root (.attachmentCount ∉ pending.erase field ∧ (reads.take db r.root field).excludedAttachmentCount = 0)
      (.revisionCount ∉ pending.erase field ∧ (reads.take db r.root field).memoryRevisionCount = 0) := by
  constructor
  · intro zero
    obtain ⟨taken,count⟩ := zero
    by_cases here : field = .attachmentCount
    · subst here
      exact length_eq_zero_iff.mp count
    refine counted.attachments ⟨fun there => taken ((mem_erase_of_ne (Ne.symm here)).mpr there),?_⟩
    cases field <;> first | exact count | exact absurd rfl here
  intro zero
  obtain ⟨taken,count⟩ := zero
  by_cases here : field = .revisionCount
  · subst here
    have empty : db.revisions = [] := length_eq_zero_iff.mp count
    have last := valid.current
    rw [empty] at last
    exact .inl (memoryRoot_none.mpr (Option.map_eq_none_iff.mp last.symm))
  refine counted.revisions ⟨fun there => taken ((mem_erase_of_ne (Ne.symm here)).mpr there),?_⟩
  cases field <;> first | exact count | exact absurd rfl here

theorem read_knows (valid : Valid db) (field : Field) (knows : pc.knows db writes) : (pc.read db field).knows db writes := by
  cases pc with
  | copyReads =>
    simp only [Pc.read]
    split <;> trivial
  | recoverReads =>
    simp only [Pc.read]
    split
    · exact ⟨knows.1,fun all => take_counted valid field (knows.2 all)⟩
    exact knows
  | uploadCommit | copyCommit | recoverCommit => exact knows
  | _ => trivial

theorem plan_apart (built : buildPlan root sync action reason reads = .ok plan) : plan.oldRoot ≠ plan.newRoot := by
  have among : ∀ other ∈ reads.mismatched root, other ≠ root := fun other mem => by
    unfold Reads.mismatched at mem
    split at mem
    · exact of_decide_eq_true (mem_filter.mp mem).2
    exact of_decide_eq_true (mem_filter.mp mem).2
  unfold buildPlan at built
  split at built
  · cases built
  split at built
  · cases built
  split at built
  · cases built
  rename_i old rest is
  split at built
  · cases built
  split at built
  · cases built
  cases built
  exact among old (by rw [is]; exact mem_cons_self)
end

inductive Effect (runtime : Runtime) (db : Db) (writes : List Root) (pc : Pc) : Prop where
  | still (same : (pc.call runtime writes.length db).1 = db) (quiet : pc.receipt = none ∨ (pc.call runtime writes.length db).2.won = false)
      (knows : (pc.call runtime writes.length db).2.knows db writes)
  | commits (after : Db) (table : Table) (key : Key) (moved : pc.call runtime writes.length db = (after,.ended .won)) (spent : pc.receipt = some (table,key))
      (commits : Commits db after pc.expecting (pc.writing runtime) table key)

section
variable {runtime : Runtime} {db : Db}

theorem refuse_knows {next : Pc} (knows : next.knows db writes) : (refuse condition next).knows db writes := by
  unfold refuse
  split
  · trivial
  exact knows

theorem prepared_knows {next : Project → Pc} (knows : (next db.project).knows db writes) : (prepared allowed root db next).knows db writes := by
  unfold prepared
  split
  · exact knows
  trivial

theorem committed_effect (spent : pc.receipt = some (table,key)) (calls : pc.call runtime writes.length db = committed db batch)
    (commits : ∀ after, batch = some after → Commits db after pc.expecting (pc.writing runtime) table key) : Effect runtime db writes pc := by
  cases done : batch with
  | none =>
    rw [done] at calls
    exact .still (by rw [calls]; rfl) (.inr (by rw [calls]; rfl)) (by rw [calls]; trivial)
  | some after =>
    rw [done] at calls
    exact .commits after table key calls spent (commits after done)

theorem call_effect (valid : Valid db) (knows : pc.knows db writes) (current : ∀ r plan mark, pc = .recoverCommit r plan mark → (plan.batch r.key db).isSome →
      (plan.reads.contacts = none → db.contactSet = none) ∧ (plan.reads.memory = none → db.memory = none)) : Effect runtime db writes pc := by
  cases pc with
  | contactsCommit => exact committed_effect rfl rfl fun after done => saveContacts_commits valid done
  | memoryCommit => exact committed_effect rfl rfl fun after done => saveMemory_commits valid done
  | uploadCommit => exact committed_effect rfl rfl fun after done => upload_commits valid done knows.2
  | copyCommit => exact committed_effect rfl rfl fun after done => copy_commits valid knows done
  | recoverCommit r plan mark =>
    refine committed_effect rfl rfl fun after done => ?_
    obtain ⟨contacts,memory⟩ := current r plan mark rfl (by rw [done]; rfl)
    exact recover_commits r mark valid done contacts memory
  | contactsPrepare | uploadFinal => exact .still rfl (.inl rfl) (prepared_knows trivial)
  | contactsRows | ended => exact .still rfl (.inl rfl) trivial
  | memoryPrepare | uploadPrepare | uploadPrepared | copyPrepare =>
    refine .still rfl (.inl rfl) ?_
    simp only [Pc.call]
    refine prepared_knows ?_
    exact refuse_knows trivial
  | uploadFinalRead r =>
    refine .still rfl (.inl rfl) ?_
    by_cases agrees : db.memoryVersion = r.expected
    · refine refuse_knows ⟨Nat.le_of_eq agrees.symm,fun memory found _ => ?_⟩
      rw [found]
      rfl
    have refused : (!(db.memory.all (·.root = r.root) && db.memoryVersion = r.expected)) := by
      rw [decide_eq_false agrees,Bool.and_false]
      rfl
    simp only [Pc.call,refuse,refused,if_true]
    trivial
  | copyReads r project pending d =>
    refine .still rfl (.inl rfl) ?_
    simp only [Pc.call]
    split
    · unfold refuse
      split
      · trivial
      rename_i accepted
      show r.accepts d = true
      simpa using accepted
    trivial
  | recoverPrepare =>
    refine .still rfl (.inl rfl) ?_
    simp only [Pc.call]
    refine prepared_knows ?_
    exact ⟨Nat.le_refl _,fun _ => ⟨fun zero => absurd (by decide) zero.1,fun zero => absurd (by decide) zero.1⟩⟩
  | recoverReads r sync mark pending reads =>
    refine .still rfl (.inl rfl) ?_
    simp only [Pc.call]
    split
    · rename_i done
      split
      · rename_i plan built
        obtain ⟨root,_,action,read⟩ := plan_parts built
        refine refuse_knows ⟨⟨root,action,plan_apart built⟩,knows.1,fun all => ?_⟩
        have counted := knows.2 all
        rw [read]
        exact ⟨fun zero => counted.attachments ⟨by rw [done]; exact not_mem_nil,zero⟩, fun zero => counted.revisions ⟨by rw [done]; exact not_mem_nil,zero⟩⟩
      trivial
    exact knows
  | _ =>
    exact .still rfl (.inl rfl) (refuse_knows trivial)
end

structure Sound (s : State) : Prop where
  valid : Valid s.db
  knows : ∀ (flow : Nat) (pc : Pc), s.flows[flow]? = some pc → pc.knows s.db s.writes
  below : ∀ pair ∈ s.succeeded, pair.2 < s.db.version pair.1
  single : s.succeeded.Nodup
  spent : ∀ pair ∈ s.spent, pair.2 ∈ s.db.keys pair.1
  once : s.spent.Nodup

section
variable {runtime : Runtime} {s t : State}

theorem set_knows {next : Pc} (others : ∀ (other : Nat) (rival : Pc), s.flows[other]? = some rival → rival.knows db writes)
    (own : next.knows db writes) : ∀ (other : Nat) (rival : Pc), (s.flows.set flow next)[other]? = some rival → rival.knows db writes := by
  intro other rival found
  obtain ⟨rfl,rfl⟩ | ⟨_,before⟩ := moved_get found
  · exact own
  exact others other rival before

theorem Sound.joined (sound : Sound s) (fresh : pc.knows s.db s.writes) : Sound (s.join pc) := by
  refine ⟨sound.valid,fun other rival found => ?_,sound.below,sound.single,sound.spent,sound.once⟩
  replace found : (s.flows++[pc])[other]? = some rival := found
  rw [getElem?_append] at found
  split at found
  · exact sound.knows other rival found
  cases mem_singleton.mp (mem_of_getElem? found)
  exact fresh

theorem Sound.stepped (sound : Sound s) (effect : Effect runtime s.db s.writes pc) : Sound (s.stepped runtime flow pc) := by
  cases effect with
  | still same quiet knows =>
    have lost : (pc.receipt.isSome && (pc.call runtime s.writes.length s.db).2.won) = false := by
      rcases quiet with none | lost
      · rw [none]; rfl
      rw [lost,Bool.and_false]
    unfold State.stepped
    simp only [lost,same]
    exact ⟨sound.valid,set_knows sound.knows knows,sound.below,sound.single,sound.spent,sound.once⟩
  | commits after table key moved spent commits =>
    unfold State.stepped
    simp only [moved,spent]
    refine ⟨commits.valid,set_knows (fun other rival found => knows_later commits (sound.knows other rival found)) trivial,fun pair mem => ?_,?_,
      fun pair mem => ?_,?_⟩
    · rcases mem_append.mp mem with new | old
      · rw [commits.written pair new]
        exact Nat.lt_succ_self _
      · exact Nat.lt_of_lt_of_le (sound.below pair old) (commits.later pair.1)
    · refine nodup_append.mpr ⟨commits.single,sound.single,fun left new right old same => ?_⟩
      subst same
      have below := sound.below left old
      rw [commits.expected left (commits.within left new)] at below
      exact Nat.lt_irrefl _ below
    · rw [commits.keys]
      rcases mem_append.mp mem with new | old
      · cases mem_singleton.mp new
        rw [if_pos rfl]
        exact mem_cons_self
      have there := sound.spent pair old
      split
      · rename_i same
        exact mem_cons_of_mem _ there
      exact there
    refine nodup_append.mpr ⟨nodup_singleton _,sound.once,fun left new right old same => ?_⟩
    subst same
    cases mem_singleton.mp new
    exact commits.fresh (sound.spent _ old)

theorem meets_current (met : Meets s (.step flow)) (here : s.flows[flow]? = some pc)
    (is : pc = .recoverCommit r plan mark) (done : (plan.batch r.key s.db).isSome) : Current s plan mark :=
  met r plan mark (by rw [here,is]) done

theorem step_effect (sound : Sound s) (met : Meets s (.step flow)) (here : s.flows[flow]? = some pc) : Effect runtime s.db s.writes pc :=
  call_effect sound.valid (sound.knows flow pc here) fun _ _ _ is done =>
    have current := meets_current met here is done
    ⟨current.1,current.2.1⟩

theorem next_sound (sound : Sound s) (moved : next runtime s event = some t) (met : Meets s event) : Sound t := by
  cases event with
  | move =>
    cases moved
    have valid := sound.valid
    exact ⟨⟨valid.contacts,valid.assigned,valid.absent,valid.memories,valid.current,valid.attached⟩,
      fun other rival found => knows_moved (sound.knows other rival found),fun pair mem => by
        have below := sound.below pair mem
        cases is : pair.1 <;> rw [is] at below <;> exact below,sound.single,fun pair mem => by
        have there := sound.spent pair mem
        cases is : pair.1 <;> rw [is] at there <;> exact there,sound.once⟩
  | read flow field =>
    obtain ⟨pc,here,rfl⟩ := map_eq_some_iff.mp moved
    exact ⟨sound.valid,set_knows sound.knows (read_knows sound.valid field (sound.knows flow pc here)),sound.below,sound.single,sound.spent,sound.once⟩
  | step =>
    obtain ⟨_,here,rfl⟩ := map_eq_some_iff.mp moved
    exact sound.stepped (step_effect sound met here)
  | abandon =>
    obtain ⟨pc,here,rfl⟩ := map_eq_some_iff.mp moved
    exact ⟨sound.valid,set_knows sound.knows trivial,sound.below,sound.single,sound.spent,sound.once⟩
  | _ => cases moved; exact sound.joined trivial
end

structure Complete (runtime : Runtime) (s : State) : Prop where
  contacts : s.db.contactRevisions.map (·.version) = range' 1 s.db.contactsVersion
  assigned : ∀ set, s.db.contactSet = some set → s.db.contactRevisions.getLast? = some ⟨set.version,s.db.assignments⟩
  memories : (s.db.archive++s.db.revisions).map (·.version) = range' 1 s.db.memoryVersion
  current : ∀ memory, s.db.memory = some memory →
    ∃ row, s.db.revisions.getLast? = some row ∧ row.version = memory.version ∧ row.snapshot = memory.snapshot
  single : s.succeeded.Nodup
  once : s.spent.Nodup
  expected : ∀ (flow : Nat) (t : State) (pc : Pc), next runtime s (.step flow) = some t → Meets s (.step flow) → s.flows[flow]? = some pc →
    t.db = s.db ∨ (pc.expecting ≠ [] ∧ ∀ pair ∈ pc.expecting, s.db.version pair.1 = pair.2)
  recovered : ∀ (flow : Nat) (t : State) (r : Recover) (plan : Plan) (mark : Nat), next runtime s (.step flow) = some t → Meets s (.step flow) →
    s.flows[flow]? = some (.recoverCommit r plan mark) → t.db = s.db ∨ ((∀ row ∈ t.db.assignments, row.under = r.root) ∧
      (∀ row ∈ t.db.attachments, row.root = r.root) ∧ (r.action = .reset → ∀ row ∈ t.db.revisions, row.under = r.root))

theorem expecting_receipt {pc : Pc} (spent : pc.receipt ≠ none) : pc.expecting ≠ [] := by
  cases pc with
  | contactsCommit | memoryCommit | uploadCommit | copyCommit | recoverCommit => exact cons_ne_nil _ _
  | _ => exact absurd rfl spent

theorem Sound.complete {s : State} (sound : Sound s) (runtime : Runtime) : Complete runtime s := by
  have valid := sound.valid
  refine ⟨valid.contacts,fun set found => ?_,valid.memories,fun memory found => ?_,sound.single,sound.once,fun flow t pc moved met here => ?_,
    fun flow t r plan mark moved met here => ?_⟩
  · rw [valid.assigned,found]
    rfl
  · have last := valid.current
    rw [found] at last
    obtain ⟨row,is,same⟩ := map_eq_some_iff.mp last
    exact ⟨row,is,congrArg Prod.fst same,congrArg Prod.snd same⟩
  · obtain ⟨_,there,rfl⟩ := map_eq_some_iff.mp moved
    cases Option.some.inj (there.symm.trans here)
    cases step_effect sound met here with
    | still same => exact .inl same
    | commits _ _ _ _ spent commits => exact .inr ⟨expecting_receipt (by rw [spent]; exact nofun),commits.expected⟩
  obtain ⟨_,there,rfl⟩ := map_eq_some_iff.mp moved
  cases Option.some.inj (there.symm.trans here)
  have knows : (Pc.recoverCommit r plan mark).knows s.db s.writes := sound.knows flow _ here
  obtain ⟨⟨root,action,apart⟩,_,counted⟩ := knows
  cases done : plan.batch r.key s.db with
  | none => exact .inl (by rw [State.stepped,Pc.call,done]; rfl)
  | some after =>
    have present : Current s plan mark := met r plan mark here (by rw [done]; rfl)
    have counts := counted fun other mem => by
      rw [←root]
      exact present.2.2 other mem
    rw [←root] at counts
    obtain ⟨assignments,attachments,revisions⟩ := recover_clean valid done apart present.1 present.2.1 counts.attachments counts.revisions
    have after_ : (s.stepped runtime flow (.recoverCommit r plan mark)).db = after := by rw [State.stepped,Pc.call,done]; rfl
    rw [after_,←root,←action]
    exact .inr ⟨fun row mem => by rw [assignments] at mem; exact (not_mem_nil mem).elim,attachments,revisions⟩

-- Whatever the requests, the order of their calls and the reassignments between them.
theorem overlay_complete (runtime : Runtime) (project : Project) (events : List Event) (s : State)
    (run : Runs (Guarded (fun s e t => next runtime s e = some t) Meets) (begun project) events s) : Complete runtime s := by
  refine (run.preserves Sound (fun _ _ _ sound moved => next_sound sound moved.1 moved.2) ?_).complete runtime
  exact ⟨⟨rfl,rfl,fun _ => rfl,rfl,rfl,fun _ => rfl⟩,fun _ _ found => (nomatch found),fun _ member => (not_mem_nil member).elim,nodup_nil,
    fun _ member => (not_mem_nil member).elim,nodup_nil⟩

def meetsCheck (s : State) : Event → Bool
  | .step flow => match s.flows[flow]? with
    | some (.recoverCommit _ plan mark) => (plan.reads.contacts.isSome || s.db.contactSet.isNone) &&
        (plan.reads.memory.isSome || s.db.memory.isNone) && (s.since mark).all (· = plan.newRoot)
    | _ => true
  | _ => true

theorem meets_of_check (checked : meetsCheck s event) : Meets s event := by
  cases event with
  | step =>
    intro r _ _ here _
    simp only [meetsCheck,here,Bool.and_eq_true,Bool.or_eq_true] at checked
    refine ⟨fun none => ?_,fun none => ?_,fun root mem => of_decide_eq_true (all_eq_true.mp checked.2 root mem)⟩
    · rw [none] at checked
      exact Option.isNone_iff_eq_none.mp (checked.1.1.resolve_left nofun)
    rw [none] at checked
    exact Option.isNone_iff_eq_none.mp (checked.1.2.resolve_left nofun)
  | _ => trivial

def steps (flow count : Nat) : List Event := replicate count (.step flow)
def readAll (flow : Nat) : List Event := recoveryFields.map (.read flow)
def contactsOf (root : Root) (key : String) : Event := .saveContacts ⟨root,0,⟨"staff-1",key⟩,[⟨"client-1",.projectContact,none,""⟩],true⟩
def memoryOf (root : Root) (key : String) : Event := .saveMemory ⟨root,0,⟨"staff-1",key⟩,emptyMemory,none,true⟩

def recoverOf (sync contactsVersion memoryVersion : Nat) : Event :=
  .recover ⟨secondRoot,.reset,"reassigned",⟨"staff-1","operation-key-0009"⟩,
    ⟨.reset,"reassigned",sync,secondRoot,firstRoot,contactsVersion,memoryVersion,contactsVersion,memoryVersion,0,0,0,0⟩,true⟩

def recovering : List Event :=
  [contactsOf firstRoot "operation-key-0001"]++steps 0 5++[memoryOf firstRoot "operation-key-0002"]++steps 1 4 ++
    [.move ⟨secondRoot,2,.active⟩,recoverOf 2 1 1]++steps 2 2++readAll 2++steps 2 2

def recoveredState : State :=
  (follow (fun s e => if meetsCheck s e then next plainRuntime s e else none) (begun ⟨firstRoot,1,.active⟩) recovering).getD (begun ⟨firstRoot,1,.active⟩)

theorem overlay_complete_example : recoveredState.db.archive.map (·.version) = [1] ∧ recoveredState.db.revisions.map (·.version) = [2] ∧
    recoveredState.db.contactRevisions.map (·.version) = [1,2] ∧ Complete plainRuntime recoveredState :=
  have run : Runs (Guarded (fun s e t => next plainRuntime s e = some t) Meets) (begun ⟨firstRoot,1,.active⟩) recovering recoveredState :=
    (Runs.of_checked rfl).mono fun _ _ _ taken => ⟨taken.1,meets_of_check taken.2⟩
  ⟨rfl,rfl,rfl,overlay_complete plainRuntime ⟨firstRoot,1,.active⟩ recovering recoveredState run⟩

def overtaken : List Event :=
  [memoryOf firstRoot "operation-key-0001"]++steps 0 4++[.move ⟨secondRoot,2,.active⟩,recoverOf 2 0 1]++steps 1 2++readAll 1++steps 1 1 ++
    [contactsOf secondRoot "operation-key-0002"]++steps 2 5

def overtakenState : State := (follow (next plainRuntime) (begun ⟨firstRoot,1,.active⟩) overtaken).getD (begun ⟨firstRoot,1,.active⟩)

def returning : List Event :=
  [contactsOf firstRoot "operation-key-0001"]++steps 0 5++[.move ⟨secondRoot,1,.active⟩,recoverOf 1 1 0]++steps 1 2++readAll 1++steps 1 1 ++
    [.move ⟨firstRoot,1,.active⟩,memoryOf firstRoot "operation-key-0002"]++steps 2 4++[.move ⟨secondRoot,1,.active⟩]

def returningState : State := (follow (next plainRuntime) (begun ⟨firstRoot,1,.active⟩) returning).getD (begun ⟨firstRoot,1,.active⟩)
def State.after (s : State) (flow : Nat) : State := (next plainRuntime s (.step flow)).getD s

theorem overlay_overtaken : (Runs (fun s e t => next plainRuntime s e = some t) (begun ⟨firstRoot,1,.active⟩) overtaken overtakenState ∧
      (overtakenState.flows[1]?).map Pc.expecting = some [(.contacts,0),(.memory,1)] ∧ overtakenState.db.contactsVersion = 1 ∧
      overtakenState.db.memoryVersion = 1 ∧ (overtakenState.after 1).db.memoryVersion = 2) ∧
    (Runs (fun s e t => next plainRuntime s e = some t) (begun ⟨firstRoot,1,.active⟩) returning returningState ∧
      (returningState.after 1).db.recoveries.map (fun receipt => (receipt.action,receipt.newRoot)) = [(.reset,secondRoot)] ∧
      (returningState.after 1).db.revisions.map (·.under) = [firstRoot]) :=
  ⟨⟨Runs.of_follow rfl,rfl,rfl,rfl,rfl⟩,⟨Runs.of_follow rfl,rfl,rfl⟩⟩
end LedgeTopOps.ProjectOverlay
