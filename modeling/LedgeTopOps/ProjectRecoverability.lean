import LedgeTopOps.ProjectRecovery
import LedgeTopOps.StepRuns

namespace LedgeTopOps.ProjectOverlay
open List StepRuns
open Option (bind_eq_some_iff ite_none_right_eq_some map_eq_some_iff)

def Db.contactsRoot (db : Db) : Option Root := db.contactSet.map (·.root)
def Db.memoryRoot (db : Db) : Option Root := db.memory.map (·.root)

structure Owned (db : Db) : Prop where
  bounded : db.assignments.length ≤ 100
  agreed : ∀ left ∈ db.contactsRoot, ∀ right ∈ db.memoryRoot, left = right

section
variable {db : Db} {root left : Root} {sync : Nat} {action : Action} {reason : String}

theorem live_roots (db : Db) (root : Root) : (db.reads root).live = db.contactsRoot.toList++db.memoryRoot.toList := by
  unfold Reads.live Db.reads Db.contactsRoot Db.memoryRoot
  cases db.contactSet <;> cases db.memory <;> rfl

theorem required_iff : db.recoveryRequired ↔ (db.reads db.project.root).liveMismatched db.project.root ≠ [] := by
  rw [Reads.liveMismatched,live_roots]
  unfold Db.recoveryRequired Db.contactsRoot Db.memoryRoot
  cases db.contactSet <;> cases db.memory <;> simp [imp_iff_not_or]

theorem plan_exists (bounded : db.assignments.length ≤ 100) (mismatched : (db.reads root).liveMismatched root ≠ [])
    (single : ∀ other ∈ (db.reads root).live, other = left) : ∃ plan, buildPlan root sync action reason (db.reads root) = .ok plan := by
  have among : ∀ other ∈ (db.reads root).liveMismatched root, other = left :=
    fun other mem => single other (mem_filter.mp mem).1
  obtain ⟨old,rest,is⟩ := exists_cons_of_ne_nil mismatched
  have listed : old ∈ (db.reads root).liveMismatched root := by rw [is]; exact mem_cons_self
  have first : old = left := among old listed
  have apart : left ≠ root := by
    have chosen := (mem_filter.mp listed).2
    rw [first] at chosen
    exact of_decide_eq_true chosen
  have chosen : (db.reads root).mismatched root = old :: rest := by rw [Reads.mismatched,if_neg mismatched,is]
  have contacts : ¬(db.reads root).contacts.any (·.root = root) := fun any => by
    obtain ⟨set,found,owns⟩ := (Option.any_eq_true _ _).mp any
    have owner := single set.root (mem_append_left _ (by rw [found]; exact mem_cons_self))
    exact apart (owner.symm.trans (of_decide_eq_true owns))
  have memories : ¬(db.reads root).memory.any (·.root = root) := fun any => by
    obtain ⟨memory,found,owns⟩ := (Option.any_eq_true _ _).mp any
    have owner := single memory.root (mem_append_right _ (by rw [found]; exact mem_cons_self))
    exact apart (owner.symm.trans (of_decide_eq_true owns))
  have same : ((db.reads root).liveMismatched root).any (· ≠ old) = false := by
    rw [any_eq_false]
    intro other mem
    rw [among other mem,first]
    simp
  refine ⟨⟨action,reason,sync,root,old,db.reads root⟩,?_⟩
  unfold buildPlan
  rw [if_neg (show ¬100 < (db.reads root).contactCount from Nat.not_lt.mpr bounded),if_neg (fun both => mismatched both.1),chosen]
  dsimp only
  rw [if_neg (fun either => either.elim (fun any => by rw [same] at any; cases any) fun empty => mismatched empty.1),
    if_neg (fun either => either.elim contacts memories)]

theorem plan_refused (current : db.contactsRoot = some root ∨ db.memoryRoot = some root) :
    ∀ plan, buildPlan root sync action reason (db.reads root) ≠ .ok plan := by
  intro _ built
  have mixed : (db.reads root).contacts.any (·.root = root) ∨ (db.reads root).memory.any (·.root = root) := by
    rcases current with owns | owns
    · obtain ⟨_,is,same⟩ := map_eq_some_iff.mp owns
      exact .inl (by rw [Db.reads,is]; exact decide_eq_true same)
    obtain ⟨_,is,same⟩ := map_eq_some_iff.mp owns
    exact .inr (by rw [Db.reads,is]; exact decide_eq_true same)
  unfold buildPlan at built
  split at built
  · cases built
  split at built
  · cases built
  split at built
  · cases built
  split at built
  · cases built
  cases built

theorem plan_parts (built : buildPlan root sync action reason reads = .ok plan) :
    plan.newRoot = root ∧ plan.sync = sync ∧ plan.action = action ∧ plan.reads = reads := by
  unfold buildPlan at built
  split at built
  · cases built
  split at built
  · cases built
  split at built
  · cases built
  split at built
  · cases built
  split at built
  · cases built
  cases built
  exact ⟨rfl,rfl,rfl,rfl⟩
end

inductive Owners (db after : Db) : Prop where
  | written (contacts : after.contactsRoot = db.contactsRoot ∨ (db.contactSet = none ∧ after.contactsRoot = some db.project.root))
      (memory : after.memoryRoot = db.memoryRoot ∨ (db.memory = none ∧ after.memoryRoot = some db.project.root))
  | recovered (contacts : after.contactsRoot = db.contactSet.map fun _ => db.project.root)
      (memory : after.memoryRoot = db.memory.map fun _ => db.project.root)

structure Stays (db after : Db) : Prop where
  project : after.project = db.project
  bounded : db.assignments.length ≤ 100 → after.assignments.length ≤ 100

section
variable {db after : Db} {project : Project} {runtime : Runtime}

theorem writeContacts_owners (written : db.writeContacts project expected deletes rows = some after) :
    Stays db after ∧ after.memoryRoot = db.memoryRoot ∧ after.memory = db.memory ∧
      (after.contactsRoot = db.contactsRoot ∨ (db.contactSet = none ∧ after.contactsRoot = some db.project.root)) := by
  obtain ⟨⟨same,_,owned,_,_,few,_⟩,is⟩ := ite_none_right_eq_some.mp written
  cases is
  refine ⟨⟨rfl,fun _ => few⟩,rfl,rfl,?_⟩
  cases found : db.contactSet with
  | none => exact .inr ⟨rfl,by rw [same]; rfl⟩
  | some =>
    rw [found] at owned
    exact .inl (by rw [Db.contactsRoot,Db.contactsRoot,found]; exact congrArg some (of_decide_eq_true owned).symm)

theorem writeMemory_owners (written : db.writeMemory project expected row snapshot changeKind amendmentReason = some after) :
    Stays db after ∧ after.contactsRoot = db.contactsRoot ∧ after.contactSet = db.contactSet ∧
      (after.memoryRoot = db.memoryRoot ∨ (db.memory = none ∧ after.memoryRoot = some db.project.root)) := by
  obtain ⟨⟨same,_,owned,_⟩,is⟩ := ite_none_right_eq_some.mp written
  cases is
  refine ⟨⟨rfl,fun few => few⟩,rfl,rfl,?_⟩
  cases found : db.memory with
  | none => exact .inr ⟨rfl,by rw [same]; rfl⟩
  | some =>
    rw [found] at owned
    exact .inl (by rw [Db.memoryRoot,Db.memoryRoot,found]; exact congrArg some (of_decide_eq_true owned).symm)

theorem saveContacts_owners {r : ContactsSave} (done : r.batch project current db = some after) : Stays db after ∧ Owners db after := by
  obtain ⟨_,written,last⟩ := bind_eq_some_iff.mp done
  obtain ⟨stays,memory,_,contacts⟩ := writeContacts_owners written
  obtain ⟨_,is⟩ := Option.ite_none_left_eq_some.mp last
  cases is
  exact ⟨⟨stays.project,stays.bounded⟩,.written contacts (.inl memory)⟩

theorem saveMemory_owners {r : MemorySave} (done : r.batch project db = some after) : Stays db after ∧ Owners db after := by
  obtain ⟨_,written,last⟩ := bind_eq_some_iff.mp done
  obtain ⟨stays,contacts,_,memory⟩ := writeMemory_owners written
  obtain ⟨_,is⟩ := Option.ite_none_left_eq_some.mp last
  cases is
  exact ⟨⟨stays.project,stays.bounded⟩,.written (.inl contacts) memory⟩

theorem upload_owners {r : Upload} (done : r.batch project changeKind snapshot db = some after) : Stays db after ∧ Owners db after := by
  obtain ⟨_,mapped⟩ := Option.ite_none_left_eq_some.mp done
  obtain ⟨_,written,rfl⟩ := map_eq_some_iff.mp mapped
  obtain ⟨stays,contacts,_,memory⟩ := writeMemory_owners written
  exact ⟨⟨stays.project,stays.bounded⟩,.written (.inl contacts) memory⟩

theorem copy_owners {r : Copy} (done : r.batch runtime project d db = some after) : Stays db after ∧ Owners db after := by
  obtain ⟨_,mapped⟩ := ite_none_right_eq_some.mp done
  obtain ⟨last,both,rfl⟩ := map_eq_some_iff.mp mapped
  obtain ⟨middle,first,second⟩ := bind_eq_some_iff.mp both
  have contacts : Stays db middle ∧ middle.memoryRoot = db.memoryRoot ∧ middle.memory = db.memory ∧
      (middle.contactsRoot = db.contactsRoot ∨ (db.contactSet = none ∧ middle.contactsRoot = some db.project.root)) := by
    split at first
    · exact writeContacts_owners first
    cases first
    exact ⟨⟨rfl,fun few => few⟩,rfl,rfl,.inl rfl⟩
  have memory : Stays middle last ∧ last.contactsRoot = middle.contactsRoot ∧ last.contactSet = middle.contactSet ∧
      (last.memoryRoot = middle.memoryRoot ∨ (middle.memory = none ∧ last.memoryRoot = some middle.project.root)) := by
    split at second
    · exact writeMemory_owners second
    cases second
    exact ⟨⟨rfl,fun few => few⟩,rfl,rfl,.inl rfl⟩
  obtain ⟨stays,sameMemory,stored,set⟩ := contacts
  obtain ⟨later,sameContacts,_,written⟩ := memory
  refine ⟨⟨later.project.trans stays.project,fun few => later.bounded (stays.bounded few)⟩,.written ?_ ?_⟩
  · show last.contactsRoot = _ ∨ (_ ∧ last.contactsRoot = _)
    rw [sameContacts]
    exact set
  rw [←sameMemory,←stored,←stays.project]
  exact written

theorem recover_owners {plan : Plan} (done : plan.batch key db = some after) (read : plan.reads = db.reads plan.newRoot) :
    Stays db after ∧ Owners db after := by
  obtain ⟨⟨owns,_⟩,is⟩ := ite_none_right_eq_some.mp done
  cases is
  have contacts : plan.reads.contacts = db.contactSet := by rw [read]; rfl
  have memory : plan.reads.memory = db.memory := by rw [read]; rfl
  have excluded : ∀ d : Db, (plan.excludeAttachments d).project = d.project ∧ (plan.excludeAttachments d).assignments = d.assignments ∧
      (plan.excludeAttachments d).contactSet = d.contactSet ∧ (plan.excludeAttachments d).memory = d.memory := fun d => by
    unfold Plan.excludeAttachments
    split <;> exact ⟨rfl,rfl,rfl,rfl⟩
  obtain ⟨project,assignments,contactSet,stored⟩ := excluded (plan.takeMemory (plan.clearContacts db))
  have taken : ∀ d : Db, (plan.takeMemory d).project = d.project ∧ (plan.takeMemory d).assignments = d.assignments ∧
      (plan.takeMemory d).contactSet = d.contactSet ∧
      (plan.takeMemory d).memoryRoot = if plan.reads.memory.isSome then some plan.newRoot else d.memoryRoot := fun d => by
    unfold Plan.takeMemory
    cases plan.reads.memory <;> exact ⟨rfl,rfl,rfl,rfl⟩
  obtain ⟨project',assignments',contactSet',stored'⟩ := taken (plan.clearContacts db)
  have cleared : (plan.clearContacts db).project = db.project ∧ (plan.clearContacts db).memory = db.memory ∧
      (db.assignments.length ≤ 100 → (plan.clearContacts db).assignments.length ≤ 100) ∧
      (plan.clearContacts db).contactsRoot = if plan.reads.contacts.isSome then some plan.newRoot else db.contactsRoot := by
    unfold Plan.clearContacts
    cases plan.reads.contacts with
    | none => exact ⟨rfl,rfl,id,rfl⟩
    | some => exact ⟨rfl,rfl,fun _ => Nat.zero_le 100,rfl⟩
  obtain ⟨project'',memory'',few,roots⟩ := cleared
  refine ⟨⟨project.trans (project'.trans project''),fun bound => ?_⟩,.recovered ?_ ?_⟩
  · show (plan.excludeAttachments (plan.takeMemory (plan.clearContacts db))).assignments.length ≤ 100
    rw [assignments,assignments']
    exact few bound
  · show (plan.excludeAttachments (plan.takeMemory (plan.clearContacts db))).contactsRoot = _
    rw [Db.contactsRoot,contactSet,contactSet']
    show (plan.clearContacts db).contactsRoot = _
    rw [roots,contacts,owns,Db.contactsRoot]
    cases db.contactSet <;> rfl
  rw [Db.memoryRoot,stored]
  show (plan.takeMemory (plan.clearContacts db)).memoryRoot = _
  rw [stored',memory,owns,Db.memoryRoot,memory'']
  cases db.memory <;> rfl

theorem perform_owners {call : Call} (done : call.perform runtime db = some after) :
    (∃ project, call = .move project ∧ after = { db with project := project }) ∨ (Stays db after ∧ Owners db after) := by
  cases call with
  | saveContacts => exact .inr (saveContacts_owners (ite_none_right_eq_some.mp done).2)
  | saveMemory => exact .inr (saveMemory_owners (ite_none_right_eq_some.mp done).2)
  | upload => exact .inr (upload_owners (ite_none_right_eq_some.mp done).2)
  | copy => exact .inr (copy_owners (ite_none_right_eq_some.mp done).2)
  | recover r =>
    have planned := (ite_none_right_eq_some.mp done).2
    split at planned
    · rename_i plan built
      obtain ⟨_,batch⟩ := ite_none_right_eq_some.mp planned
      obtain ⟨root,_,_,reads⟩ := plan_parts built
      exact .inr (recover_owners batch (by rw [reads,root]))
    cases planned
  | move project =>
    cases done
    exact .inl ⟨project,rfl,rfl⟩
end

-- A call that creates one of the two records finds the other absent or under the same owner.
def Admits (runtime : Runtime) (db : Db) (call : Call) : Prop :=
  (db.contactSet = none → (db.after runtime call).contactSet ≠ none → ∀ owner ∈ db.memoryRoot, owner = db.project.root) ∧
    (db.memory = none → (db.after runtime call).memory ≠ none → ∀ owner ∈ db.contactsRoot, owner = db.project.root)

section
variable {runtime : Runtime} {db : Db}

theorem contactsRoot_none : db.contactsRoot = none ↔ db.contactSet = none := Option.map_eq_none_iff
theorem memoryRoot_none : db.memoryRoot = none ↔ db.memory = none := Option.map_eq_none_iff

theorem after_owners (runtime : Runtime) (db : Db) (call : Call) :
    (∃ project, call = .move project ∧ db.after runtime call = { db with project := project }) ∨
      (Stays db (db.after runtime call) ∧ Owners db (db.after runtime call)) := by
  unfold Db.after
  cases done : call.perform runtime db with
  | none => exact .inr ⟨⟨rfl,id⟩,.written (.inl rfl) (.inl rfl)⟩
  | some => exact perform_owners done

theorem Owned.after (owned : Owned db) (admits : Admits runtime db call) : Owned (db.after runtime call) := by
  rcases after_owners runtime db call with ⟨project,_,is⟩ | ⟨stays,owners⟩
  · rw [is]
    exact ⟨owned.bounded,owned.agreed⟩
  refine ⟨stays.bounded owned.bounded,fun left isLeft right isRight => ?_⟩
  cases owners with
  | recovered contacts memory =>
    rw [contacts] at isLeft
    rw [memory] at isRight
    obtain ⟨_,_,rfl⟩ := map_eq_some_iff.mp isLeft
    obtain ⟨_,_,rfl⟩ := map_eq_some_iff.mp isRight
    rfl
  | written contacts memory =>
    have createdSet : (db.after runtime call).contactSet ≠ none := fun gone => by
      rw [contactsRoot_none.mpr gone] at isLeft
      cases isLeft
    have createdMemory : (db.after runtime call).memory ≠ none := fun gone => by
      rw [memoryRoot_none.mpr gone] at isRight
      cases isRight
    rcases contacts with kept | ⟨absent,made⟩
    · rcases memory with same | ⟨missing,written⟩
      · exact owned.agreed left (by rw [←kept]; exact isLeft) right (by rw [←same]; exact isRight)
      · rw [written] at isRight
        cases isRight
        exact admits.2 missing createdMemory left (by rw [←kept]; exact isLeft)
    rw [made] at isLeft
    cases isLeft
    rcases memory with same | ⟨missing,written⟩
    · exact (admits.1 absent createdSet right (by rw [←same]; exact isRight)).symm
    rw [written] at isRight
    cases isRight
    rfl

theorem Owned.recoverable (owned : Owned db) : db.recoverable := by
  intro required _ _
  have mismatched := required_iff.mp required
  cases set : db.contactsRoot with
  | some left =>
    refine plan_exists owned.bounded mismatched fun other (mem : other ∈ _) => (?_ : other = left)
    rw [live_roots,set] at mem
    rcases mem_append.mp mem with first | second
    · exact mem_singleton.mp first
    exact (owned.agreed left set other (Option.mem_toList.mp second)).symm
  | none =>
    cases stored : db.memoryRoot with
    | some right =>
      refine plan_exists owned.bounded mismatched fun other (mem : other ∈ _) => (?_ : other = right)
      rw [live_roots,set,stored] at mem
      exact mem_singleton.mp mem
    | none =>
      refine absurd ?_ mismatched
      rw [Reads.liveMismatched,live_roots,set,stored]
      rfl

theorem mixed_blocked {mixed : Db} (apart : other ≠ mixed.project.root)
    (beside : (mixed.contactsRoot = some mixed.project.root ∧ mixed.memoryRoot = some other) ∨
      (mixed.memoryRoot = some mixed.project.root ∧ mixed.contactsRoot = some other)) : ¬mixed.recoverable := by
  intro recoverable
  have required : mixed.recoveryRequired := by
    refine required_iff.mpr fun empty => ?_
    have mem : other ∈ (mixed.reads mixed.project.root).liveMismatched mixed.project.root := by
      refine mem_filter.mpr ⟨?_,decide_eq_true apart⟩
      rw [live_roots]
      rcases beside with ⟨_,is⟩ | ⟨_,is⟩
      · exact mem_append_right _ (by rw [is]; exact mem_cons_self)
      exact mem_append_left _ (by rw [is]; exact mem_cons_self)
    rw [empty] at mem
    cases mem
  obtain ⟨plan,built⟩ := recoverable required .reset ""
  exact plan_refused (beside.imp (·.1) (·.1)) plan built

theorem created_blocked (unmet : ¬Admits runtime db call) : ¬(db.after runtime call).recoverable := by
  have creates : (db.contactSet = none ∧ (db.after runtime call).contactSet ≠ none ∧ ∃ owner ∈ db.memoryRoot, owner ≠ db.project.root) ∨
      (db.memory = none ∧ (db.after runtime call).memory ≠ none ∧ ∃ owner ∈ db.contactsRoot, owner ≠ db.project.root) := by
    by_contra neither
    refine unmet ⟨fun absent made owner is => ?_,fun absent made owner is => ?_⟩
    · by_contra other
      exact neither (.inl ⟨absent,made,owner,is,other⟩)
    by_contra other
    exact neither (.inr ⟨absent,made,owner,is,other⟩)
  rcases after_owners runtime db call with ⟨project,_,is⟩ | ⟨stays,owners⟩
  · rw [is] at creates
    rcases creates with ⟨absent,made,_⟩ | ⟨absent,made,_⟩
    · exact absurd absent made
    exact absurd absent made
  cases owners with
  | recovered contacts memory =>
    rcases creates with ⟨absent,made,_⟩ | ⟨absent,made,_⟩
    · exact absurd (contactsRoot_none.mp (by rw [contacts,absent]; rfl)) made
    exact absurd (memoryRoot_none.mp (by rw [memory,absent]; rfl)) made
  | written contacts memory =>
    rcases creates with ⟨absent,made,other,owns,apart⟩ | ⟨absent,made,other,owns,apart⟩
    · rcases contacts with kept | ⟨_,written⟩
      · exact absurd (contactsRoot_none.mp (kept.trans (contactsRoot_none.mpr absent))) made
      · rcases memory with same | ⟨missing,_⟩
        · exact mixed_blocked (by rw [stays.project]; exact apart) (.inl ⟨by rw [stays.project]; exact written,same.trans owns⟩)
        · rw [memoryRoot_none.mpr missing] at owns
          cases owns
    rcases memory with kept | ⟨_,written⟩
    · exact absurd (memoryRoot_none.mp (kept.trans (memoryRoot_none.mpr absent))) made
    rcases contacts with same | ⟨missing,_⟩
    · exact mixed_blocked (by rw [stays.project]; exact apart) (.inr ⟨by rw [stays.project]; exact written,same.trans owns⟩)
    rw [contactsRoot_none.mpr missing] at owns
    cases owns
end

-- From an empty overlay: what the workspace answers for can be recovered after every call exactly where no call
-- creates a record beside another owner's.
theorem recoverable_iff (runtime : Runtime) (project : Project) (calls : List Call) :
    (∀ taken ∈ trace (Db.after runtime) (Db.empty project) calls, taken.after.recoverable) ↔
      ∀ taken ∈ trace (Db.after runtime) (Db.empty project) calls, Admits runtime taken.before taken.event := by
  have start : Owned (Db.empty project) := ⟨Nat.zero_le 100,fun _ is => nomatch is⟩
  generalize Db.empty project = db at start ⊢
  induction calls generalizing db with
  | nil => exact ⟨fun _ _ member => (not_mem_nil member).elim,fun _ _ member => (not_mem_nil member).elim⟩
  | cons call _ ih =>
    constructor
    · intro recoverable taken member
      have admits : Admits runtime db call := by
        by_contra unmet
        exact created_blocked unmet (recoverable ⟨db,call,db.after runtime call⟩ mem_cons_self)
      rcases mem_cons.mp member with rfl | later
      · exact admits
      exact (ih _ (start.after admits)).mp (fun other there => recoverable other (mem_cons_of_mem _ there)) taken later
    intro met taken member
    have admits : Admits runtime db call := met ⟨db,call,db.after runtime call⟩ mem_cons_self
    rcases mem_cons.mp member with rfl | later
    · exact (start.after admits).recoverable
    exact (ih _ (start.after admits)).mpr (fun other there => met other (mem_cons_of_mem _ there)) taken later

def firstRoot : Root := ⟨.organization,"org-a"⟩
def secondRoot : Root := ⟨.organization,"org-b"⟩
def plainRuntime : Runtime := ⟨fun _ _ => true,(·.isEmpty)⟩

-- Contacts are saved under the first owner, the project is reassigned, and the second owner's staff save a memory,
-- which checks the memory's root only.
def mixingCalls : List Call :=
  [.saveContacts ⟨firstRoot,0,⟨"staff-1","operation-key-0001"⟩,[⟨"client-1",.projectContact,none,""⟩],true⟩,
    .move ⟨secondRoot,2,.active⟩,.saveMemory ⟨secondRoot,0,⟨"staff-1","operation-key-0002"⟩,emptyMemory,none,true⟩]

def mixedState : Db := mixingCalls.foldl (Db.after plainRuntime) (Db.empty ⟨firstRoot,1,.active⟩)

theorem recovery_blocked : mixedState.recoveryRequired = true ∧ ∀ (action : Action) (reason : String) (plan : Plan),
    buildPlan mixedState.project.root mixedState.project.sync action reason (mixedState.reads mixedState.project.root) ≠ .ok plan :=
  ⟨by decide,fun _ _ => plan_refused (.inr rfl)⟩
end LedgeTopOps.ProjectOverlay
