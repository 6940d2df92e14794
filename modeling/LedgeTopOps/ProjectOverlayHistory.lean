import LedgeTopOps.ProjectOverlayFlows
import LedgeTopOps.ProjectRecoverability

namespace LedgeTopOps.ProjectOverlay
open List Option

structure Valid (db : Db) : Prop where
  contacts : db.contactRevisions.map (·.version) = range' 1 db.contactsVersion
  assigned : db.contactRevisions.getLast? = db.contactSet.map fun set => ⟨set.version,db.assignments⟩
  absent : db.contactSet = none → db.assignments = []
  memories : (db.archive++db.revisions).map (·.version) = range' 1 db.memoryVersion
  current : db.revisions.getLast?.map (fun row => (row.version,row.snapshot)) = db.memory.map fun memory => (memory.version,memory.snapshot)
  attached : db.memory = none → db.attachments = []

theorem Valid.unrevised (valid : Valid db) (absent : db.memory = none) : db.revisions = [] := by
  have last := valid.current
  rw [absent] at last
  exact List.getLast?_eq_none_iff.mp (map_eq_none_iff.mp last)

structure Commits (db after : Db) (expecting writing : List (Kind × Nat)) (table : Table) (key : Key) : Prop where
  project : after.project = db.project
  valid : Valid after
  expected : ∀ pair ∈ expecting, db.version pair.1 = pair.2
  within : ∀ pair ∈ writing, pair ∈ expecting
  single : writing.Nodup
  written : ∀ pair ∈ writing, after.version pair.1 = pair.2 + 1
  later : ∀ kind, db.version kind ≤ after.version kind
  same : after.memoryVersion = db.memoryVersion → after.memory = db.memory
  owner : db.memoryRoot = none ∨ db.memoryRoot = some db.project.root → after.memoryRoot = none ∨ after.memoryRoot = some db.project.root
  foreign : db.foreign db.project.root = [] → after.foreign db.project.root = []
  fresh : key ∉ db.keys table
  keys : ∀ other, after.keys other = if other = table then key :: db.keys other else db.keys other

section
variable {after : Db}

theorem versionIs_version {α : Type*} {held : Option α} {version : α → Nat} (is : versionIs (held.map version) expected) :
    (held.map version).getD 0 = expected := by
  unfold versionIs at is
  split at is
  · rename_i zero
    rw [isNone_iff_eq_none.mp is,zero]
    rfl
  rw [of_decide_eq_true is]
  rfl

theorem range_next (n : Nat) : range' 1 n++[n + 1] = range' 1 (n + 1) := by
  rw [range'_concat,Nat.add_comm n 1,Nat.one_mul]

theorem writeContacts_valid (valid : Valid db) (written : db.writeContacts project expected deletes rows = some after) :
    Valid after ∧ db.contactsVersion = expected ∧ after.contactsVersion = expected + 1 ∧ db.project = project ∧
      after = { db with
        contactSet := after.contactSet
        assignments := after.assignments
        contactRevisions := after.contactRevisions } := by
  obtain ⟨⟨same,version,_⟩,is⟩ := ite_none_right_eq_some.mp written
  cases is
  have before : db.contactsVersion = expected := versionIs_version version
  refine ⟨⟨?_,?_,nofun,valid.memories,valid.current,valid.attached⟩,before,rfl,same,rfl⟩
  · rw [map_append,valid.contacts,before]
    exact range_next expected
  exact List.getLast?_concat

theorem writeMemory_valid (valid : Valid db) (written : db.writeMemory project expected row snapshot changeKind amendmentReason = some after)
    (agrees : ∀ memory, db.memory = some memory → row memory.snapshot = snapshot) :
    Valid after ∧ db.memoryVersion = expected ∧ after.memoryVersion = expected + 1 ∧ db.project = project ∧
      after.memoryRoot = some project.root ∧ after = { db with memory := after.memory, revisions := after.revisions } := by
  obtain ⟨⟨same,version,_⟩,is⟩ := ite_none_right_eq_some.mp written
  cases is
  have before : db.memoryVersion = expected := versionIs_version version
  refine ⟨⟨valid.contacts,valid.assigned,valid.absent,?_,?_,nofun⟩,before,rfl,same,rfl,rfl⟩
  · rw [←append_assoc,map_append,valid.memories,before]
    exact range_next expected
  rw [List.getLast?_concat]
  cases found : db.memory with
  | none => rfl
  | some memory => exact congrArg (fun kept => some (expected + 1,kept)) (agrees memory found).symm
end

variable {db after : Db}

theorem foreign_others {left right : Db} (same : left.attachments = right.attachments) (root : Root) : left.foreign root = right.foreign root := by
  rw [Db.foreign,Db.foreign,same]

theorem saveContacts_commits {r : ContactsSave} (valid : Valid db) (done : r.batch project current db = some after) :
    Commits db after [(.contacts,r.expected)] [(.contacts,r.expected)] .saves r.key := by
  obtain ⟨middle,written,last⟩ := bind_eq_some_iff.mp done
  obtain ⟨sound,before,version,_,frame⟩ := writeContacts_valid valid written
  rw [frame] at last
  obtain ⟨fresh,is⟩ := ite_none_left_eq_some.mp last
  cases is
  have version' : (middle.contactSet.map (·.version)).getD 0 = r.expected + 1 := version
  exact {
    project := rfl
    valid := ⟨sound.contacts,sound.assigned,sound.absent,valid.memories,valid.current,valid.attached⟩
    expected := fun pair mem => by cases mem_singleton.mp mem; exact before
    within := fun _ mem => mem
    single := nodup_singleton _
    written := fun pair mem => by cases mem_singleton.mp mem; exact version
    later := fun kind => by
      cases kind with
      | contacts =>
        show db.contactsVersion ≤ (middle.contactSet.map (·.version)).getD 0
        omega
      | memory => exact Nat.le_refl _
    same := fun _ => rfl
    owner := id
    foreign := id
    fresh := fresh
    keys := fun other => by cases other <;> rfl }

theorem saveMemory_commits {r : MemorySave} (valid : Valid db) (done : r.batch project db = some after) :
    Commits db after [(.memory,r.expected)] [(.memory,r.expected)] .saves r.key := by
  obtain ⟨middle,written,last⟩ := bind_eq_some_iff.mp done
  obtain ⟨sound,before,version,here,owner,frame⟩ := writeMemory_valid valid written fun _ _ => rfl
  rw [frame] at last
  obtain ⟨fresh,is⟩ := ite_none_left_eq_some.mp last
  cases is
  have version' : (middle.memory.map (·.version)).getD 0 = r.expected + 1 := version
  exact {
    project := rfl
    valid := ⟨valid.contacts,valid.assigned,valid.absent,by rw [frame] at sound; exact sound.memories,sound.current,by
      rw [frame] at sound; exact sound.attached⟩
    expected := fun pair mem => by cases mem_singleton.mp mem; exact before
    within := fun _ mem => mem
    single := nodup_singleton _
    written := fun pair mem => by cases mem_singleton.mp mem; exact version
    later := fun kind => by
      cases kind with
      | contacts => exact Nat.le_refl _
      | memory =>
        show db.memoryVersion ≤ (middle.memory.map (·.version)).getD 0
        omega
    same := fun equal => by
      have equal' : (middle.memory.map (·.version)).getD 0 = db.memoryVersion := equal
      omega
    owner := fun _ => .inr (by rw [here]; exact owner)
    foreign := id
    fresh := fresh
    keys := fun other => by cases other <;> rfl }

theorem upload_commits {r : Upload} {changeKind : ChangeKind} (valid : Valid db) (done : r.batch project changeKind snapshot db = some after)
    (agrees : ∀ memory, db.memory = some memory → memory.version = r.expected → memory.snapshot = snapshot) :
    Commits db after [(.memory,r.expected)] [(.memory,r.expected)] .uploads r.key := by
  obtain ⟨clear,mapped⟩ := ite_none_left_eq_some.mp done
  obtain ⟨middle,written,is⟩ := map_eq_some_iff.mp mapped
  have versions : versionIs (db.memory.map (·.version)) r.expected := (ite_none_right_eq_some.mp written).1.2.1
  obtain ⟨sound,before,version,here,owner,frame⟩ := writeMemory_valid valid written fun memory found => agrees memory found (by
    have held := versionIs_version versions
    rw [found] at held
    exact held)
  rw [frame] at is
  subst is
  have version' : (middle.memory.map (·.version)).getD 0 = r.expected + 1 := version
  have stored : middle.memory ≠ none := fun gone => by
    rw [Db.memoryRoot,gone] at owner
    cases owner
  exact {
    project := rfl
    valid := ⟨valid.contacts,valid.assigned,valid.absent,by rw [frame] at sound; exact sound.memories,sound.current,
      fun gone => absurd gone stored⟩
    expected := fun pair mem => by cases mem_singleton.mp mem; exact before
    within := fun _ mem => mem
    single := nodup_singleton _
    written := fun pair mem => by cases mem_singleton.mp mem; exact version
    later := fun kind => by
      cases kind with
      | contacts => exact Nat.le_refl _
      | memory =>
        show db.memoryVersion ≤ (middle.memory.map (·.version)).getD 0
        omega
    same := fun equal => by
      have equal' : (middle.memory.map (·.version)).getD 0 = db.memoryVersion := equal
      omega
    owner := fun _ => .inr (by rw [here]; exact owner)
    foreign := fun none => by
      show (db.attachments++[_]).filter _ = []
      rw [filter_append,here]
      rw [here] at none
      exact append_eq_nil_iff.mpr ⟨none,by simp [Attachment.foreign]⟩
    fresh := fun there => clear (.inl there)
    keys := fun other => by cases other <;> rfl }

theorem optional_nodup [Decidable p] [Decidable q] (contacts memory : Nat) :
    ((if p then [(Kind.contacts,contacts)] else [])++if q then [(Kind.memory,memory)] else []).Nodup := by
  split <;> split <;> simp

structure ContactsPart (db middle : Db) (changed : Bool) : Prop where
  valid : Valid middle
  version : middle.contactsVersion = db.contactsVersion + if changed then 1 else 0
  frame : middle = { db with contactSet := middle.contactSet, assignments := middle.assignments, contactRevisions := middle.contactRevisions }

structure MemoryPart (db after : Db) (changed : Bool) : Prop where
  valid : Valid after
  version : after.memoryVersion = db.memoryVersion + if changed then 1 else 0
  kept : changed = false → after.memory = db.memory
  owner : db.memoryRoot = none ∨ db.memoryRoot = some db.project.root → after.memoryRoot = none ∨ after.memoryRoot = some db.project.root
  frame : after = { db with memory := after.memory, revisions := after.revisions }

theorem copy_commits {r : Copy} (valid : Valid db) (accepts : r.accepts d) (done : r.batch runtime project d db = some after) :
    Commits db after (Pc.copyCommit r project d).expecting ((Pc.copyCommit r project d).writing runtime) .copies r.key := by
  obtain ⟨⟨_,_,contactsRead,memoryRead,fresh⟩,mapped⟩ := ite_none_right_eq_some.mp done
  obtain ⟨last,both,is⟩ := map_eq_some_iff.mp mapped
  obtain ⟨middle,first,second⟩ := bind_eq_some_iff.mp both
  have expectations : d.contactsVersion = r.expectedContacts ∧ d.memoryVersion = r.expectedMemory := by
    unfold Copy.accepts at accepts
    simp only [Bool.and_eq_true,decide_eq_true_eq] at accepts
    exact ⟨accepts.1.2,accepts.2⟩
  have contacts : ContactsPart db middle (r.contactsChanged runtime d.rows) := by
    split at first
    · rename_i changed
      obtain ⟨sound,before,version,_,frame⟩ := writeContacts_valid valid first
      exact ⟨sound,by rw [changed,version,before]; rfl,frame⟩
    rename_i same
    cases first
    exact ⟨valid,by rw [if_neg same]; rfl,rfl⟩
  have memory : MemoryPart middle last (r.memoryChanged d.snapshot) := by
    split at second
    · rename_i changed
      obtain ⟨sound,before,version,here,owner,frame⟩ := writeMemory_valid contacts.valid second fun _ _ => rfl
      exact ⟨sound,by rw [changed,version,before]; rfl,fun same => (nomatch changed.symm.trans same),fun _ => .inr (by rw [here]; exact owner),frame⟩
    rename_i same
    cases second
    exact ⟨contacts.valid,by rw [if_neg same]; rfl,fun _ => rfl,id,rfl⟩
  have memoryBefore : middle.memoryVersion = db.memoryVersion := by rw [contacts.frame]; rfl
  have contactsAfter : last.contactsVersion = middle.contactsVersion := by rw [memory.frame]; rfl
  have sameProject : last.project = db.project := by rw [memory.frame,contacts.frame]
  have sameMemory : middle.memory = db.memory := by rw [contacts.frame]
  have contactsStep := contacts.version
  have memoryStep := memory.version
  have whole : after.contactsVersion = last.contactsVersion ∧ after.memoryVersion = last.memoryVersion := by rw [←is]; exact ⟨rfl,rfl⟩
  have members : ∀ pair ∈ (Pc.copyCommit r project d).writing runtime, (pair = (.contacts,r.expectedContacts) ∧ r.contactsChanged runtime d.rows) ∨
        (pair = (.memory,r.expectedMemory) ∧ r.memoryChanged d.snapshot) := fun pair mem => by
    rcases mem_append.mp mem with here | here
    · split at here
      · rename_i changed
        exact .inl ⟨mem_singleton.mp here,changed⟩
      · cases here
    split at here
    · rename_i changed
      exact .inr ⟨mem_singleton.mp here,changed⟩
    cases here
  exact {
    project := by rw [←is]; exact sameProject
    valid := by
      rw [←is]
      exact ⟨memory.valid.contacts,memory.valid.assigned,memory.valid.absent,memory.valid.memories,memory.valid.current,memory.valid.attached⟩
    expected := fun pair mem => by
      rcases mem_cons.mp mem with rfl | there
      · exact contactsRead.trans expectations.1
      cases mem_singleton.mp there
      exact memoryRead.trans expectations.2
    within := fun pair mem => by
      rcases members pair mem with ⟨rfl,_⟩ | ⟨rfl,_⟩
      · exact mem_cons_self
      exact mem_cons_of_mem _ mem_cons_self
    single := optional_nodup _ _
    written := fun pair mem => by
      rcases members pair mem with ⟨rfl,changed⟩ | ⟨rfl,changed⟩
      · rw [changed] at contactsStep
        show after.contactsVersion = r.expectedContacts + 1
        rw [whole.1,contactsAfter,contactsStep,contactsRead,expectations.1]
        rfl
      rw [changed] at memoryStep
      show after.memoryVersion = r.expectedMemory + 1
      rw [whole.2,memoryStep,memoryBefore,memoryRead,expectations.2]
      rfl
    later := fun kind => by
      cases kind with
      | contacts =>
        show db.contactsVersion ≤ after.contactsVersion
        omega
      | memory =>
        show db.memoryVersion ≤ after.memoryVersion
        omega
    same := fun equal => by
      have kept : r.memoryChanged d.snapshot = false := by
        cases changed : r.memoryChanged d.snapshot with
        | false => rfl
        | true =>
          rw [changed] at memoryStep
          have step : last.memoryVersion = middle.memoryVersion + 1 := memoryStep
          omega
      rw [←is]
      exact (memory.kept kept).trans sameMemory
    owner := fun owns => by
      have held := memory.owner (by
        rw [Db.memoryRoot,sameMemory,show middle.project = db.project by rw [contacts.frame]]
        exact owns)
      rw [show middle.project = db.project by rw [contacts.frame]] at held
      rw [←is]
      exact held
    foreign := fun none => by
      rw [←is]
      show last.foreign db.project.root = []
      have same : last.attachments = db.attachments := by rw [memory.frame,contacts.frame]
      rw [foreign_others same]
      exact none
    fresh := fresh
    keys := fun other => by
      rw [←is]
      have tables : last.mutations = db.mutations ∧ last.completed = db.completed ∧ last.copies = db.copies ∧ last.recoveries = db.recoveries := by
        rw [memory.frame,contacts.frame]
        exact ⟨rfl,rfl,rfl,rfl⟩
      obtain ⟨mutations,completed,copies,recoveries⟩ := tables
      cases other with
      | saves => exact mutations
      | uploads => exact completed
      | copies => exact congrArg (cons r.key) copies
      | recoveries => exact congrArg (map Recovery.key) recoveries }

variable {plan : Plan}

theorem Valid.revision_le (valid : Valid db) (mem : row ∈ db.revisions) : row.version ≤ db.memoryVersion := by
  have listed : row.version ∈ (db.archive++db.revisions).map (·.version) := mem_map_of_mem (mem_append_right _ mem)
  rw [valid.memories] at listed
  have bounds := mem_range'_1.mp listed
  omega

theorem archived_kept (valid : Valid db) (version : db.memoryVersion = plan.memoryBefore) :
    (plan.archived db = db.revisions ∧ plan.kept db = []) ∨ (plan.archived db = [] ∧ plan.kept db = db.revisions) := by
  unfold Plan.archived Plan.kept
  split
  · refine .inl ⟨filter_eq_self.mpr fun row mem => decide_eq_true ?_,filter_eq_nil_iff.mpr fun (row : MemoryRevision) mem above => ?_⟩
    · rw [←version]
      exact valid.revision_le mem
    · have most := valid.revision_le mem
      have beyond := of_decide_eq_true above
      omega
  exact .inr ⟨rfl,rfl⟩

theorem clear_part (valid : Valid db) (fits : plan.contactsFit db) : ContactsPart db (plan.clearContacts db) plan.reads.contacts.isSome ∧
      (plan.reads.contacts.isSome → db.contactsVersion = plan.contactsBefore) := by
  unfold Plan.clearContacts Plan.contactsBefore
  unfold Plan.contactsFit at fits
  cases read : plan.reads.contacts with
  | none => exact ⟨⟨valid,rfl,rfl⟩,nofun⟩
  | some set =>
    rw [read] at fits
    simp only [Bool.and_eq_true,decide_eq_true_eq] at fits
    have version : db.contactsVersion = set.version := by rw [Db.contactsVersion,fits.1.1]; rfl
    refine ⟨⟨⟨?_,List.getLast?_concat,fun _ => rfl,valid.memories,valid.current,valid.attached⟩,?_,rfl⟩,fun _ => version⟩
    · show (db.contactRevisions++[_]).map ContactRevision.version = range' 1 (set.version + 1)
      rw [map_append,valid.contacts,version]
      exact range_next set.version
    show set.version + 1 = db.contactsVersion + 1
    rw [version]

structure Taken (db after : Db) (plan : Plan) : Prop where
  valid : Valid after
  version : after.memoryVersion = db.memoryVersion + if plan.reads.memory.isSome then 1 else 0
  before : plan.reads.memory.isSome = true → db.memoryVersion = plan.memoryBefore ∧ db.memoryRoot = some plan.oldRoot
  kept : plan.reads.memory.isSome = false → after = db
  owner : plan.reads.memory.isSome = true → after.memoryRoot = some plan.newRoot
  frame : after = { db with memory := after.memory, revisions := after.revisions, archive := after.archive }
  revisions : plan.reads.memory.isSome = true → ∃ row, after.revisions = plan.kept db++[row] ∧ row.under = plan.newRoot

theorem take_part (valid : Valid db) (fits : plan.memoryFits db) : Taken db (plan.takeMemory db) plan := by
  unfold Plan.takeMemory
  unfold Plan.memoryFits at fits
  cases read : plan.reads.memory with
  | none =>
    have never : plan.reads.memory.isSome ≠ true := by
      rw [read]
      exact Bool.false_ne_true
    exact ⟨valid,by rw [read]; rfl,fun is => absurd is never,fun _ => rfl,fun is => absurd is never,rfl,fun is => absurd is never⟩
  | some memory =>
    rw [read] at fits
    simp only [Bool.and_eq_true] at fits
    obtain ⟨_,found,facts⟩ := (any_eq_true _ _).mp fits.1.1.1
    simp only [Bool.and_eq_true,decide_eq_true_eq] at facts
    have version : db.memoryVersion = memory.version := by rw [Db.memoryVersion,found]; exact facts.1
    have before : plan.memoryBefore = memory.version := by rw [Plan.memoryBefore,read]; rfl
    have ledger : ((db.archive++plan.archived db) ++
        (plan.kept db++[(⟨memory.version + 1,.saved,plan.snapshot memory,none,plan.newRoot⟩ : MemoryRevision)])).map MemoryRevision.version =
        range' 1 (memory.version + 1) := by
      have same : (db.archive++plan.archived db)++plan.kept db = db.archive++db.revisions := by
        rcases archived_kept valid (version.trans before.symm) with ⟨archived,kept⟩ | ⟨archived,kept⟩
        · rw [archived,kept,append_nil]
        rw [archived,kept,append_nil]
      rw [←append_assoc,same,map_append,valid.memories,version]
      exact range_next memory.version
    refine ⟨⟨valid.contacts,valid.assigned,valid.absent,ledger,?_,fun none => by cases none⟩,?_,fun _ => ⟨version.trans before.symm,?_⟩,?_,fun _ => rfl,rfl,fun _ =>
      ⟨_,rfl,rfl⟩⟩
    · show (plan.kept db++[_]).getLast?.map _ = _
      rw [List.getLast?_concat]
      rfl
    · rw [read]
      show memory.version + 1 = db.memoryVersion + 1
      rw [version]
    · rw [Db.memoryRoot,found]
      exact congrArg some facts.2
    intro none
    rw [read] at none
    cases none

theorem exclude_frame (plan : Plan) (db : Db) : plan.excludeAttachments db = { db with
    attachments := (plan.excludeAttachments db).attachments
    attachmentArchive := (plan.excludeAttachments db).attachmentArchive
    attachmentReceipts := (plan.excludeAttachments db).attachmentReceipts } := by
  unfold Plan.excludeAttachments
  split <;> rfl

theorem exclude_attachments (plan : Plan) (db : Db) : ∀ row ∈ (plan.excludeAttachments db).attachments, row ∈ db.attachments := by
  unfold Plan.excludeAttachments
  split
  · exact fun _ mem => mem
  exact fun _ mem => (mem_filter.mp mem).1

theorem recover_commits (r : Recover) (mark : Nat) (valid : Valid db) (done : plan.batch key db = some after)
    (noContacts : plan.reads.contacts = none → db.contactSet = none) (noMemory : plan.reads.memory = none → db.memory = none) :
    Commits db after (Pc.recoverCommit r plan mark).expecting ((Pc.recoverCommit r plan mark).writing runtime) .recoveries key := by
  obtain ⟨⟨owns,_,contactsFit,memoryFits,_,fresh,_⟩,is⟩ := ite_none_right_eq_some.mp done
  obtain ⟨cleared,contactsBefore⟩ := clear_part valid contactsFit
  have fits : plan.memoryFits (plan.clearContacts db) := by
    have same : plan.memoryFits (plan.clearContacts db) = plan.memoryFits db := by
      rw [cleared.frame]
      rfl
    rw [same]
    exact memoryFits
  have taken := take_part cleared.valid fits
  have excluded := exclude_frame plan (plan.takeMemory (plan.clearContacts db))
  have subset := exclude_attachments plan (plan.takeMemory (plan.clearContacts db))
  generalize plan.excludeAttachments (plan.takeMemory (plan.clearContacts db)) = last at is excluded subset
  generalize plan.takeMemory (plan.clearContacts db) = second at taken excluded subset
  generalize plan.clearContacts db = first at cleared taken
  replace is : ({ last with recoveries := plan.receipt key :: last.recoveries } : Db) = after := some.inj is
  have memoryFirst : first.memoryVersion = db.memoryVersion ∧ first.memoryRoot = db.memoryRoot ∧ first.memory = db.memory := by
    rw [cleared.frame]
    exact ⟨rfl,rfl,rfl⟩
  have contactsLast : after.contactsVersion = first.contactsVersion := by
    rw [←is,excluded,taken.frame]
    rfl
  have memoryLast : after.memoryVersion = second.memoryVersion ∧ after.memory = second.memory := by
    rw [←is,excluded]
    exact ⟨rfl,rfl⟩
  have contactsStep := cleared.version
  have memoryStep := taken.version
  have contactsExpected : db.contactsVersion = plan.contactsBefore := by
    cases read : plan.reads.contacts with
    | some => exact contactsBefore (by rw [read]; rfl)
    | none => rw [Db.contactsVersion,noContacts read,Plan.contactsBefore,read]
  have memoryExpected : db.memoryVersion = plan.memoryBefore := by
    cases read : plan.reads.memory with
    | some => exact memoryFirst.1.symm.trans (taken.before (by rw [read]; rfl)).1
    | none => rw [Db.memoryVersion,noMemory read,Plan.memoryBefore,read]
  have members : ∀ pair ∈ (Pc.recoverCommit r plan mark).writing runtime, (pair = (.contacts,plan.contactsBefore) ∧ plan.reads.contacts.isSome) ∨
        (pair = (.memory,plan.memoryBefore) ∧ plan.reads.memory.isSome) := fun pair mem => by
    rcases mem_append.mp mem with here | here
    · split at here
      · rename_i found
        exact .inl ⟨mem_singleton.mp here,found⟩
      · cases here
    split at here
    · rename_i found
      exact .inr ⟨mem_singleton.mp here,found⟩
    cases here
  have attachments : ∀ row ∈ last.attachments, row ∈ db.attachments := fun row mem => by
    have there := subset row mem
    rw [taken.frame,cleared.frame] at there
    exact there
  exact {
    project := by rw [←is,excluded,taken.frame,cleared.frame]
    valid := by
      rw [←is]
      refine ⟨by rw [excluded]; exact taken.valid.contacts,by rw [excluded]; exact taken.valid.assigned,by rw [excluded]; exact taken.valid.absent,
        by rw [excluded]; exact taken.valid.memories,by rw [excluded]; exact taken.valid.current,fun gone => ?_⟩
      have none : second.attachments = [] := taken.valid.attached (by rw [excluded] at gone; exact gone)
      refine eq_nil_iff_forall_not_mem.mpr fun row mem => ?_
      have there := subset row mem
      rw [none] at there
      cases there
    expected := fun pair mem => by
      rcases mem_cons.mp mem with rfl | there
      · exact contactsExpected
      cases mem_singleton.mp there
      exact memoryExpected
    within := fun pair mem => by
      rcases members pair mem with ⟨rfl,_⟩ | ⟨rfl,_⟩
      · exact mem_cons_self
      exact mem_cons_of_mem _ mem_cons_self
    single := optional_nodup _ _
    written := fun pair mem => by
      rcases members pair mem with ⟨rfl,found⟩ | ⟨rfl,found⟩
      · rw [found] at contactsStep
        show after.contactsVersion = plan.contactsBefore + 1
        rw [contactsLast,contactsStep,contactsExpected]
        rfl
      rw [found] at memoryStep
      show after.memoryVersion = plan.memoryBefore + 1
      rw [memoryLast.1,memoryStep,memoryFirst.1,memoryExpected]
      rfl
    later := fun kind => by
      cases kind with
      | contacts =>
        show db.contactsVersion ≤ after.contactsVersion
        omega
      | memory =>
        show db.memoryVersion ≤ after.memoryVersion
        omega
    same := fun equal => by
      have kept : plan.reads.memory.isSome = false := by
        cases found : plan.reads.memory.isSome with
        | false => rfl
        | true =>
          rw [found] at memoryStep
          have step : second.memoryVersion = first.memoryVersion + 1 := memoryStep
          omega
      rw [memoryLast.2,taken.kept kept]
      exact memoryFirst.2.2
    owner := fun held => by
      show after.memory.map (·.root) = none ∨ after.memory.map (·.root) = some db.project.root
      rw [memoryLast.2]
      cases found : plan.reads.memory.isSome with
      | true => exact .inr ((taken.owner found).trans (congrArg some owns.symm))
      | false =>
        rw [taken.kept found]
        show first.memoryRoot = none ∨ first.memoryRoot = some db.project.root
        rw [memoryFirst.2.1]
        exact held
    foreign := fun none => by
      rw [←is]
      refine filter_eq_nil_iff.mpr fun row mem other => ?_
      exact filter_eq_nil_iff.mp none row (attachments row mem) other
    fresh := fresh
    keys := fun other => by
      rw [←is]
      have tables : last.mutations = db.mutations ∧ last.completed = db.completed ∧ last.copies = db.copies ∧ last.recoveries = db.recoveries := by
        rw [excluded,taken.frame,cleared.frame]
        exact ⟨rfl,rfl,rfl,rfl⟩
      obtain ⟨mutations,completed,copies,recoveries⟩ := tables
      cases other with
      | saves => exact mutations
      | uploads => exact completed
      | copies => exact copies
      | recoveries =>
        show (plan.receipt key :: last.recoveries).map Recovery.key = key :: db.recoveries.map Recovery.key
        rw [recoveries]
        rfl }

theorem recover_clean (valid : Valid db) (done : plan.batch key db = some after) (apart : plan.oldRoot ≠ plan.newRoot)
    (noContacts : plan.reads.contacts = none → db.contactSet = none) (noMemory : plan.reads.memory = none → db.memory = none)
    (noAttachments : plan.reads.excludedAttachmentCount = 0 → db.foreign plan.newRoot = [])
    (noRevisions : plan.reads.memoryRevisionCount = 0 → db.memoryRoot = none ∨ db.memoryRoot = some plan.newRoot) :
    after.assignments = [] ∧ (∀ row ∈ after.attachments, row.root = plan.newRoot) ∧
      (plan.action = .reset → ∀ row ∈ after.revisions, row.under = plan.newRoot) := by
  obtain ⟨⟨_,_,contactsFit,memoryFits,_⟩,is⟩ := ite_none_right_eq_some.mp done
  obtain ⟨cleared,_⟩ := clear_part valid contactsFit
  have fits : plan.memoryFits (plan.clearContacts db) := by
    have same : plan.memoryFits (plan.clearContacts db) = plan.memoryFits db := by
      rw [cleared.frame]
      rfl
    rw [same]
    exact memoryFits
  have taken := take_part cleared.valid fits
  have excluded := exclude_frame plan (plan.takeMemory (plan.clearContacts db))
  replace is : ({ plan.excludeAttachments (plan.takeMemory (plan.clearContacts db)) with
    recoveries := plan.receipt key :: (plan.excludeAttachments (plan.takeMemory (plan.clearContacts db))).recoveries } : Db) = after :=
    some.inj is
  refine ⟨?_,fun row mem => ?_,fun reset row mem => ?_⟩
  · rw [←is,excluded,taken.frame]
    unfold Plan.clearContacts
    cases read : plan.reads.contacts with
    | none => exact valid.absent (noContacts read)
    | some => rfl
  · rw [←is] at mem
    have attachments : (plan.takeMemory (plan.clearContacts db)).attachments = db.attachments := by rw [taken.frame,cleared.frame]
    have local_ : row ∉ db.foreign plan.newRoot → row ∈ db.attachments → row.root = plan.newRoot := fun none listed => by
      by_contra other
      exact none (mem_filter.mpr ⟨listed,decide_eq_true other⟩)
    replace mem : row ∈ (plan.excludeAttachments (plan.takeMemory (plan.clearContacts db))).attachments := mem
    unfold Plan.excludeAttachments at mem
    split at mem
    · rename_i zero
      rw [attachments] at mem
      exact local_ (by rw [noAttachments zero]; exact not_mem_nil) mem
    have kept := (mem_filter.mp mem).2
    by_contra other
    rw [show row.foreign plan.newRoot = true from decide_eq_true other] at kept
    cases kept
  rw [←is,excluded] at mem
  replace mem : row ∈ (plan.takeMemory (plan.clearContacts db)).revisions := mem
  cases read : plan.reads.memory with
  | none =>
    rw [taken.kept (by rw [read]; rfl),cleared.frame] at mem
    have empty := valid.unrevised (noMemory read)
    rw [show ({ db with
      contactSet := (plan.clearContacts db).contactSet
      assignments := (plan.clearContacts db).assignments
      contactRevisions := (plan.clearContacts db).contactRevisions } : Db).revisions = [] from empty] at mem
    cases mem
  | some memory =>
    have found : plan.reads.memory.isSome := by rw [read]; rfl
    obtain ⟨version,owner⟩ := taken.before found
    have counted : plan.reads.memoryRevisionCount ≠ 0 := fun zero => by
      rw [show (plan.clearContacts db).memoryRoot = db.memoryRoot by rw [cleared.frame]; rfl] at owner
      rcases noRevisions zero with absent | own
      · rw [absent] at owner
        cases owner
      rw [own] at owner
      exact apart (some.inj owner).symm
    obtain ⟨_,revisions,under⟩ := taken.revisions found
    have kept : plan.kept (plan.clearContacts db) = [] := by
      rcases archived_kept cleared.valid version with ⟨_,nothing⟩ | ⟨archived,nothing⟩
      · exact nothing
      have active : (plan.clearContacts db).revisions = [] := by
        rw [Plan.archived,if_pos ⟨reset,found,counted⟩] at archived
        refine eq_nil_iff_forall_not_mem.mpr fun other there => ?_
        exact filter_eq_nil_iff.mp archived other there (decide_eq_true (by rw [←version]; exact cleared.valid.revision_le there))
      rw [nothing,active]
    rw [revisions,kept] at mem
    cases mem_singleton.mp mem
    exact under
end LedgeTopOps.ProjectOverlay
