import LedgeTopOps.DeliveryProjection

namespace LedgeTopOps.DeliveryOrder
open List KeyedRows StepRuns DeliveryProjection

def Earlier (db : Database) (earlier job : Job) : Prop :=
  earlier.grantId = job.grantId ∧ earlier.grantVersion = job.grantVersion ∧ earlier.identityId = job.identityId ∧
    ∃ first ∈ db.receipts, ∃ later ∈ db.receipts, first.receiptKey = earlier.receiptKey ∧
      later.receiptKey = job.receiptKey ∧ first.r2Key = later.r2Key ∧ first.sequence < later.sequence

structure Consistent (db : Database) : Prop where
  keyed : Keyed Job.key db.jobs
  receipts : Keyed Receipt.receiptKey db.receipts
  targeted : ∀ job ∈ db.jobs, ∃ target ∈ db.targets, target.key = job.key ∧ target.grantVersion = job.grantVersion
  received : ∀ job ∈ db.jobs, ∃ receipt ∈ db.receipts, receipt.receiptKey = job.receiptKey
  numbered : ∀ receipt ∈ db.receipts, receipt.sequence ≤ db.lastSequence
  attempts : ∀ job ∈ db.jobs, job.attemptCount ≤ maxAttempts
  ordered : ∀ job ∈ db.jobs, 0 < job.attemptCount → ∀ earlier ∈ db.jobs, Earlier db earlier job → terminal earlier = true

structure Known (db : Database) (row : ProjectionJobRow) : Prop where
  receipt : ∃ receipt ∈ db.receipts, receipt.receiptKey = row.receiptKey ∧ receipt.r2Key = row.r2Key ∧
    receipt.sequence = row.sequence
  version : ∀ job ∈ db.jobs, job.key = row.key → job.grantVersion = row.grantVersion
  few : row.attemptCount < maxAttempts

inductive Move (db : Database) (worker : Worker) (event : Event) (job after : Job) : Prop where
  | claimed (token : String) (carried : worker.phase.token = some token)
      (claims : ∃ id now, event = .claim id now) (unsettled : terminal job = false)
      (ordered : ∀ earlier ∈ db.jobs, Earlier db earlier job → terminal earlier = true)
      (few : job.attemptCount < maxAttempts) (count : after.attemptCount = job.attemptCount + 1)
      (status : after.status = .processing) (lease : after.leaseToken = some token)
  | settled (token : String) (carried : worker.phase.token = some token) (held : job.leaseToken = some token)
      (processing : job.status = .processing) (count : after.attemptCount = job.attemptCount)
      (released : after.status ≠ .processing)
  | swept (id : Nat) (now : Int) (sweeps : event = .sweep id now) (due : exhausted now job = true)
      (count : after.attemptCount = job.attemptCount) (failed : after.status = .failed)

def Rewritten (worker : Worker) (event : Event) (before after : Database) : Prop :=
  ∃ change : Job → Job, after = { before with jobs := before.jobs.map change } ∧
    ∀ job ∈ before.jobs, (change job).key = job.key ∧ (change job).grantVersion = job.grantVersion ∧
      (change job = job ∨ Move before worker event job (change job))

variable {before after : Database} {job earlier : Job} {row : ProjectionJobRow}
  {parses : String → Bool} {id : Nat}

theorem Rewritten.refl (worker : Worker) (event : Event) (db : Database) : Rewritten worker event db db :=
  ⟨fun job => job,by simp,fun _ _ => ⟨rfl,rfl,.inl rfl⟩⟩

theorem update_rewritten (test : Job → Bool) (change : Job → Job) (same : ∀ job, (change job).key = job.key ∧ (change job).grantVersion = job.grantVersion)
    (moves : ∀ job ∈ db.jobs, test job → Move db worker event job (change job)) :
    Rewritten worker event db { db with jobs := (updateWhere db.jobs test change).2 } := by
  refine ⟨fun job => if test job then change job else job,rfl,fun job mem => ?_⟩
  by_cases chosen : test job
  · simp only [chosen,if_true]
    exact ⟨(same job).1,(same job).2,.inr (moves job mem chosen)⟩
  simp only [chosen]
  exact ⟨rfl,rfl,.inl rfl⟩

theorem key_parts (same : job.key = row.key) : job.receiptKey = row.receiptKey ∧ job.grantId = row.grantId ∧ job.identityId = row.identityId := by
  simpa [Job.key,ProjectionJobRow.key] using same

theorem fence_ordered (consistent : Consistent db) (known : Known db row) (mem : job ∈ db.jobs) (same : job.key = row.key)
    (fence : earlierOutstanding db row.grantId row.grantVersion row.identityId row.r2Key row.sequence = false) :
    ∀ earlier ∈ db.jobs, Earlier db earlier job → terminal earlier := by
  rintro earlier there ⟨grant,version,identity,first,firstIn,_,laterIn,firstKey,laterKey,object,less⟩
  obtain ⟨receiptKey,grantKey,identityKey⟩ := key_parts same
  obtain ⟨_,receiptIn,named,r2Key,sequence⟩ := known.receipt
  obtain rfl := consistent.receipts.unique laterIn receiptIn (by rw [laterKey,named,receiptKey])
  obtain ⟨target,targetIn,targetKey,targetVersion⟩ := consistent.targeted earlier there
  obtain ⟨targetReceipt,targetGrant,targetIdentity⟩ : target.receiptKey = earlier.receiptKey ∧
      target.grantId = earlier.grantId ∧ target.identityId = earlier.identityId := by
    simpa [Job.key,Target.key] using targetKey
  cases settled : terminal earlier with
  | true => rfl
  | false =>
    have outstanding : earlierOutstanding db row.grantId row.grantVersion row.identityId row.r2Key row.sequence := by
      refine any_eq_true.mpr ⟨earlier,there,any_eq_true.mpr ⟨target,targetIn,any_eq_true.mpr ⟨first,firstIn,?_⟩⟩⟩
      have sameVersion := known.version job mem same
      simp only [targetKey,firstKey,targetGrant,grant,grantKey,targetVersion,version,sameVersion,targetIdentity,identity,
        identityKey,object,r2Key,settled,sequence ▸ less,beq_self_eq_true,decide_true,Bool.not_false,Bool.and_self]
    rw [outstanding] at fence
    cases fence

theorem claimable_unsettled (ready : claimable job now) : terminal job = false := by
  cases status : job.status <;> simp [claimable,terminal,status] at ready ⊢

theorem claim_rewritten (consistent : Consistent db) (known : Known db row) (carried : worker.phase.token = some leaseToken) :
    Rewritten worker (.claim id now) db (claimJob db row leaseToken now).2 := by
  refine update_rewritten _ _ (fun job => ⟨rfl,rfl⟩) fun job mem chosen => ?_
  simp only [Bool.and_eq_true,beq_iff_eq,Bool.not_eq_true'] at chosen
  obtain ⟨⟨⟨same,count⟩,ready⟩,fence⟩ := chosen
  exact .claimed leaseToken carried ⟨_,_,rfl⟩ (claimable_unsettled ready) (fence_ordered consistent known mem same fence) (count ▸ known.few) rfl rfl rfl

theorem held_processing (held : heldBy row leaseToken job) : job.status = .processing ∧ job.leaseToken = some leaseToken := by
  simp only [heldBy,Bool.and_eq_true,beq_iff_eq] at held
  exact ⟨held.1.2,held.2⟩

theorem complete_rewritten (carried : worker.phase.token = some leaseToken) : Rewritten worker event db (completeJob db row leaseToken reason now).2 := by
  refine update_rewritten _ _ (fun job => ⟨rfl,rfl⟩) fun job mem chosen => ?_
  obtain ⟨processing,held⟩ := held_processing chosen
  exact .settled leaseToken carried held processing rfl nofun

theorem retry_rewritten (carried : worker.phase.token = some leaseToken) : Rewritten worker event db (retryOrFailJob db row leaseToken reason now).2 := by
  refine update_rewritten _ _ (fun job => ⟨rfl,rfl⟩) fun job mem chosen => ?_
  obtain ⟨processing,held⟩ := held_processing chosen
  refine .settled leaseToken carried held processing rfl ?_
  split <;> nofun

theorem sweep_rewritten (consistent : Consistent db) (limit : Nat) (now : Int) :
    Rewritten worker (.sweep id now) db (terminalizeExpiredExhaustedJobs db limit now).2 := by
  refine update_rewritten _ _ (fun job => ⟨rfl,rfl⟩) fun job mem chosen => ?_
  obtain ⟨_,there,same⟩ := mem_map.mp (contains_iff_mem.mp chosen)
  obtain ⟨listed,due⟩ := mem_filter.mp (mem_mergeSort.mp (mem_of_mem_take there))
  obtain rfl := consistent.keyed.unique listed mem same
  exact .swept id now rfl due rfl rfl

theorem run_rewritten (parses : String → Bool) (event : Event) (consistent : Consistent db) (known : ∀ row ∈ worker.phase.row, Known db row) :
    Rewritten worker event db (runWorker parses db worker event).1 := by
  have still := Rewritten.refl worker event db
  cases event with
  | sweep _ now =>
    cases phase : worker.phase with
    | sweeping => simp only [runWorker,phase]; exact sweep_rewritten consistent worker.limit now
    | _ => simpa only [runWorker,phase] using still
  | find id now leaseToken =>
    have unmoved : (runWorker parses db worker (.find id now leaseToken)).1 = db := by
      simp only [runWorker]
      repeat' split
      all_goals rfl
    rw [unmoved]; exact still
  | claim id now =>
    cases phase : worker.phase with
    | claiming row leaseToken =>
      have rewritten : Rewritten worker (.claim id now) db (claimJob db row leaseToken now).2 :=
        claim_rewritten consistent (known row (by simp [phase,Phase.row])) (by simp [phase,Phase.token])
      simp only [runWorker,phase]
      split <;> exact rewritten
    | _ => simpa only [runWorker,phase] using still
  | stage id outcome =>
    have unmoved : (runWorker parses db worker (.stage id outcome)).1 = db := by
      simp only [runWorker]
      repeat' split
      all_goals rfl
    rw [unmoved]; exact still
  | complete id now response =>
    cases phase : worker.phase with
    | completing row leaseToken reason =>
      have rewritten : Rewritten worker (.complete id now response) db (completeJob db row leaseToken reason now).2 :=
        complete_rewritten (by simp [phase,Phase.token])
      cases response with
      | answered | lost => simpa only [runWorker,phase] using rewritten
      | refused => simpa only [runWorker,phase] using still
    | _ => simpa only [runWorker,phase] using still
  | retry =>
    cases phase : worker.phase with
    | retrying =>
      simp only [runWorker,phase]
      exact retry_rewritten (by simp [phase,Phase.token])
    | _ => simpa only [runWorker,phase] using still
  | _ => exact still

theorem Move.unsettled {next} (move : Move db worker event job next) : terminal job = false := by
  cases move with
  | claimed _ _ _ unsettled => exact unsettled
  | settled _ _ _ processing => simp [terminal,processing]
  | swept _ _ _ due =>
    simp only [exhausted,Bool.and_eq_true,beq_iff_eq] at due
    simp [terminal,due.1.1]

theorem earlier_parts (left : first.key = earlier.key) (leftVersion : first.grantVersion = earlier.grantVersion)
    (right : second.key = job.key) (rightVersion : second.grantVersion = job.grantVersion)
    (receipts : after.receipts = before.receipts) (is : Earlier after first second) : Earlier before earlier job := by
  simp only [Job.key,Prod.mk.injEq] at left right
  simpa only [Earlier,left,leftVersion,right,rightVersion,receipts] using is

theorem Consistent.rewritten (consistent : Consistent before) (rewritten : Rewritten worker event before after) : Consistent after := by
  obtain ⟨change,rfl,moves⟩ := rewritten
  have kept : ∀ job ∈ before.jobs, terminal job → change job = job := by
    intro job mem settled
    rcases (moves job mem).2.2 with same | move
    · exact same
    cases move.unsettled.symm.trans settled
  refine ⟨?_,consistent.receipts,?_,?_,consistent.numbered,?_,?_⟩
  · have same : (before.jobs.map change).map Job.key = before.jobs.map Job.key := by
      rw [map_map]
      exact map_congr_left fun job mem => (moves job mem).1
    simpa only [Keyed,same] using consistent.keyed
  · intro _ there
    obtain ⟨job,mem,rfl⟩ := mem_map.mp there
    rw [(moves job mem).1,(moves job mem).2.1]
    exact consistent.targeted job mem
  · intro _ there
    obtain ⟨job,mem,rfl⟩ := mem_map.mp there
    have same := (moves job mem).1
    simp only [Job.key,Prod.mk.injEq] at same
    rw [same.1]
    exact consistent.received job mem
  · intro next there
    obtain ⟨job,mem,rfl⟩ := mem_map.mp there
    have bound := consistent.attempts job mem
    rcases (moves job mem).2.2 with same | move
    · rwa [same]
    cases move with
    | claimed token carried claims unsettled ordered few count status lease | settled token carried held processing count released
    | swept => omega
  intro _ there tried _ firstIn is
  obtain ⟨job,mem,rfl⟩ := mem_map.mp there
  obtain ⟨earlier,earlierIn,rfl⟩ := mem_map.mp firstIn
  have older : Earlier before earlier job := earlier_parts (moves earlier earlierIn).1 (moves earlier earlierIn).2.1
    (moves job mem).1 (moves job mem).2.1 rfl is
  have settled : terminal earlier := by
    rcases (moves job mem).2.2 with same | move
    · exact consistent.ordered job mem (same ▸ tried) earlier earlierIn older
    cases move with
    | claimed _ _ _ _ ordered => exact ordered earlier earlierIn older
    | settled _ _ _ _ count | swept _ _ _ _ count =>
      exact consistent.ordered job mem (count ▸ tried) earlier earlierIn older
  rwa [kept earlier earlierIn settled]

theorem Known.rewritten (known : Known before row) (rewritten : Rewritten worker event before after) : Known after row := by
  obtain ⟨_,rfl,moves⟩ := rewritten
  refine ⟨known.receipt,?_,known.few⟩
  intro _ there same
  obtain ⟨job,mem,rfl⟩ := mem_map.mp there
  rw [(moves job mem).2.1]
  exact known.version job mem ((moves job mem).1.symm.trans same)

structure Accepts (before : Database) (receipt : Receipt) (rows : List Target) : Prop where
  fresh : ∀ old ∈ before.receipts, old.receiptKey ≠ receipt.receiptKey
  sequence : receipt.sequence = before.lastSequence + 1
  distinct : (rows.map Target.key).Nodup
  named : ∀ row ∈ rows, row.receiptKey = receipt.receiptKey

def accepted (before : Database) (receipt : Receipt) (rows : List Target) (now : Int) : Database :=
  { before with
    receipts := before.receipts++[receipt], targets := before.targets++rows
    seals := before.seals++[receipt.receiptKey], jobs := before.jobs++rows.map (newJob now)
    lastSequence := before.lastSequence + 1 }

theorem accept_cases (db : Database) (change : Change) (targets : List (String × Int × String)) (indexApplied : Bool)
    (now : Int) : accept db change targets indexApplied now = db ∨
      ∃ receipt rows, Accepts db receipt rows ∧ accept db change targets indexApplied now = accepted db receipt rows now := by
  simp only [accept]
  split
  · exact .inl rfl
  rename_i valid
  simp only [Bool.or_eq_true,not_or,Bool.not_eq_true,Bool.not_eq_true',decide_eq_false_iff_not,not_not] at valid
  obtain ⟨⟨⟨⟨fresh,_⟩,_⟩,distinct⟩,_⟩ := valid
  refine .inr ⟨_,_,⟨?_,rfl,distinct,?_⟩,rfl⟩
  · intro old there same
    have found := any_eq_false.mp fresh old there
    simp [same] at found
  intro _ there
  obtain ⟨_,_,rfl⟩ := mem_map.mp there
  rfl

theorem Consistent.accepted (consistent : Consistent db) (accepts : Accepts db receipt rows) : Consistent (accepted db receipt rows now) := by
  have strange : ∀ job ∈ db.jobs, job.receiptKey ≠ receipt.receiptKey := by
    intro job mem same
    obtain ⟨old,there,named⟩ := consistent.received job mem
    exact accepts.fresh old there (named.trans same)
  have added : ∀ job ∈ rows.map (newJob now), ∃ row ∈ rows, newJob now row = job := fun job there => mem_map.mp there
  refine ⟨?_,consistent.receipts.add accepts.fresh,?_,?_,?_,?_,?_⟩
  · simp only [Keyed,DeliveryOrder.accepted,map_append,map_map]
    refine nodup_append.mpr ⟨consistent.keyed,accepts.distinct,?_⟩
    intro _ there _ here same
    obtain ⟨job,mem,rfl⟩ := mem_map.mp there
    obtain ⟨row,place,rfl⟩ := mem_map.mp here
    simp only [Job.key,Function.comp_apply,newJob,Prod.mk.injEq] at same
    exact strange job mem (same.1.trans (accepts.named row place))
  · intro job there
    rcases mem_append.mp there with old | new
    · obtain ⟨target,place,same⟩ := consistent.targeted job old
      exact ⟨target,mem_append_left _ place,same⟩
    obtain ⟨row,place,rfl⟩ := added job new
    exact ⟨row,mem_append_right _ place,rfl,rfl⟩
  · intro job there
    rcases mem_append.mp there with old | new
    · obtain ⟨known,place,same⟩ := consistent.received job old
      exact ⟨known,mem_append_left _ place,same⟩
    obtain ⟨row,place,rfl⟩ := added job new
    exact ⟨receipt,by simp [DeliveryOrder.accepted],(accepts.named row place).symm⟩
  · intro known there
    rcases mem_append.mp there with old | new
    · exact Nat.le_succ_of_le (consistent.numbered known old)
    rw [mem_singleton.mp new,accepts.sequence]
    exact Nat.le_refl _
  · intro job there
    rcases mem_append.mp there with old | new
    · exact consistent.attempts job old
    obtain ⟨_,_,rfl⟩ := added job new
    exact Nat.zero_le _
  intro job there tried earlier earlierIn is
  rcases mem_append.mp there with old | new
  · obtain ⟨grant,version,identity,first,firstIn,later,laterIn,firstKey,laterKey,object,less⟩ := is
    have laterOld : later ∈ db.receipts := by
      rcases mem_append.mp laterIn with known | last
      · exact known
      rw [mem_singleton.mp last] at laterKey
      exact absurd laterKey.symm (strange job old)
    rcases mem_append.mp firstIn with firstOld | firstNew
    · refine consistent.ordered job old tried earlier ?_ ⟨grant,version,identity,first,firstOld,later,laterOld,firstKey,laterKey,object,less⟩
      rcases mem_append.mp earlierIn with known | last
      · exact known
      obtain ⟨row,place,rfl⟩ := added earlier last
      exact absurd (firstKey.trans (accepts.named row place)) (accepts.fresh first firstOld)
    have bound := consistent.numbered later laterOld
    rw [mem_singleton.mp firstNew,accepts.sequence] at less
    omega
  obtain ⟨_,_,rfl⟩ := added job new
  exact absurd tried (Nat.lt_irrefl 0)

theorem Known.accepted {receipt : Receipt} (known : Known db row) (accepts : Accepts db receipt rows) : Known (accepted db receipt rows now) row := by
  obtain ⟨old,there,named,rest⟩ := known.receipt
  refine ⟨⟨old,mem_append_left _ there,named,rest⟩,?_,known.few⟩
  intro job mem same
  rcases mem_append.mp mem with present | new
  · exact known.version job present same
  obtain ⟨target,place,rfl⟩ := mem_map.mp new
  have parts := (key_parts same).1
  exact absurd (named.trans (parts.symm.trans (accepts.named target place))) (accepts.fresh old there)

theorem find_known (consistent : Consistent db) (found : findClaimableJob db now = some row) : Known db row := by
  have mem : row ∈ candidates db now := mem_mergeSort.mp (List.mem_of_mem_head? found)
  simp only [candidates,mem_flatMap,mem_filterMap] at mem
  obtain ⟨job,there,target,_,receipt,receiptIn,chosen⟩ := mem
  split at chosen
  · rename_i matched
    cases chosen
    simp only [Bool.and_eq_true,beq_iff_eq,decide_eq_true_eq] at matched
    refine ⟨⟨receipt,receiptIn,matched.1.1.1.1.2,rfl,rfl⟩,?_,matched.1.1.2⟩
    intro _ otherIn same
    rw [consistent.keyed.unique otherIn there same]
    rfl
  cases chosen

theorem run_carries (parses : String → Bool) (db : Database) (worker : Worker) (event : Event) :
    ((runWorker parses db worker event).2.id = worker.id) ∧ (∀ row ∈ (runWorker parses db worker event).2.phase.row,
      row ∈ worker.phase.row ∨ ∃ now, findClaimableJob db now = some row) ∧
    ∀ token ∈ (runWorker parses db worker event).2.phase.token, token ∈ worker.phase.token ∨ token ∈ event.token := by
  have still : (worker.id = worker.id) ∧ (∀ row ∈ worker.phase.row, row ∈ worker.phase.row ∨ ∃ now, findClaimableJob db now = some row) ∧
      ∀ token ∈ worker.phase.token, token ∈ worker.phase.token ∨ token ∈ event.token :=
    ⟨rfl,fun _ mem => .inl mem,fun _ mem => .inl mem⟩
  cases event with
  | sweep =>
    cases phase : worker.phase with
    | sweeping => exact ⟨by simp only [runWorker,phase],by simp [runWorker,phase,Phase.row],by simp [runWorker,phase,Phase.token]⟩
    | _ => simpa only [runWorker,phase] using still
  | find id now leaseToken =>
    cases phase : worker.phase with
    | finding =>
      simp only [runWorker,phase]
      split
      · split
        · exact ⟨rfl,nofun,nofun⟩
        · rename_i row found
          split
          · refine ⟨rfl,fun other mem => .inr ⟨now,?_⟩,fun token mem => .inr ?_⟩
            · cases mem; exact found
            · cases mem; simp [Event.token]
          exact ⟨rfl,nofun,nofun⟩
      exact ⟨rfl,nofun,nofun⟩
    | _ => simpa only [runWorker,phase] using still
  | claim =>
    cases phase : worker.phase with
    | claiming =>
      simp only [runWorker,phase]
      split
      · exact ⟨rfl,fun _ mem => .inl mem,fun _ mem => .inl mem⟩
      exact ⟨rfl,nofun,nofun⟩
    | _ => simpa only [runWorker,phase] using still
  | stage _ outcome =>
    cases phase : worker.phase with
    | staging row =>
      cases outcome <;> exact ⟨by simp only [runWorker,phase],by simp [runWorker,phase,Phase.row],by simp [runWorker,phase,Phase.token]⟩
    | _ => simpa only [runWorker,phase] using still
  | complete _ _ response =>
    cases phase : worker.phase with
    | completing row =>
      cases response <;> exact ⟨by simp only [runWorker,phase,Worker.next],by simp [runWorker,phase,Phase.row,Worker.next],
        by simp [runWorker,phase,Phase.token,Worker.next]⟩
    | _ => simpa only [runWorker,phase] using still
  | retry =>
    cases phase : worker.phase with
    | retrying row =>
      exact ⟨by simp only [runWorker,phase,Worker.next],by simp [runWorker,phase,Phase.row,Worker.next], by simp [runWorker,phase,Phase.token,Worker.next]⟩
    | _ => simpa only [runWorker,phase] using still
  | _ => exact still

structure Sound (world : World) : Prop where
  consistent : Consistent world.db
  workers : Keyed Worker.id world.workers
  known : ∀ worker ∈ world.workers, ∀ row ∈ worker.phase.row, Known world.db row
  issued : ∀ worker ∈ world.workers, ∀ token ∈ worker.phase.token, token ∈ world.issued
  own : ∀ left ∈ world.workers, ∀ right ∈ world.workers, ∀ token ∈ left.phase.token, token ∈ right.phase.token →
    left.id = right.id

def Statement : Event → Prop
  | .accept _ _ _ _ => False
  | .invoke _ _ _ => False
  | .die _ => False
  | _ => True

theorem advance_statement (statement : Statement event) : advance parses world event =
    match event.worker.bind (find Worker.id world.workers) with
    | none => world
    | some worker =>
      let (db,after) := runWorker parses world.db worker event
      ⟨db,amend Worker.id world.workers worker.id fun _ => after,world.issued++event.token⟩ := by
  cases event with
  | accept | invoke | die => cases statement
  | _ => rfl

theorem statement_cases (parses : String → Bool) (world : World) (statement : Statement event) :
    advance parses world event = world ∨ ∃ worker ∈ world.workers, event.worker = some worker.id ∧
      advance parses world event = ⟨(runWorker parses world.db worker event).1,
        amend Worker.id world.workers worker.id (fun _ => (runWorker parses world.db worker event).2), world.issued++event.token⟩ := by
  rw [advance_statement statement]
  cases found : event.worker.bind (find Worker.id world.workers) with
  | none => exact .inl rfl
  | some worker =>
    obtain ⟨_,named,there⟩ := Option.bind_eq_some_iff.mp found
    obtain ⟨mem,same⟩ := find_some there
    exact .inr ⟨worker,mem,by rw [named,same],rfl⟩

theorem statement_preserves (parses : String → Bool) (sound : Sound world) (admissible : Admissible world event) (statement : Statement event) :
    Sound (advance parses world event) := by
  rcases statement_cases parses world statement with same | ⟨worker,mem,_,shape⟩
  · rw [same]; exact sound
  rw [shape]
  have rewritten := run_rewritten parses event sound.consistent (sound.known worker mem)
  obtain ⟨sameId,rows,tokens⟩ := run_carries parses world.db worker event
  have unused : ∀ other ∈ world.workers, ∀ token ∈ other.phase.token, token ∉ event.token := by
    intro other there token carried fresh
    have old := sound.issued other there token carried
    cases event with
    | find =>
      simp only [Event.token,mem_singleton] at fresh
      exact admissible (fresh ▸ old)
    | _ => cases fresh
  have keyed := sound.workers
  refine ⟨sound.consistent.rewritten rewritten,keyed.amend _ fun row there same => ?_,?_,?_,?_⟩
  · rw [keyed.unique there mem same,sameId]
  · intro other there row carried
    rcases mem_amend.mp there with ⟨old,_⟩ | ⟨_,_,_,rfl⟩
    · exact (sound.known other old row carried).rewritten rewritten
    rcases rows row carried with before | ⟨now,found⟩
    · exact (sound.known worker mem row before).rewritten rewritten
    exact (find_known sound.consistent found).rewritten rewritten
  · intro other there token carried
    rcases mem_amend.mp there with ⟨old,_⟩ | ⟨_,_,_,rfl⟩
    · exact mem_append_left _ (sound.issued other old token carried)
    rcases tokens token carried with before | fresh
    · exact mem_append_left _ (sound.issued worker mem token before)
    exact mem_append_right _ fresh
  intro left leftIn right rightIn token leftCarries rightCarries
  rcases mem_amend.mp leftIn with ⟨leftOld,leftApart⟩ | ⟨_,_,_,rfl⟩
  · rcases mem_amend.mp rightIn with ⟨rightOld,_⟩ | ⟨_,_,_,rfl⟩
    · exact sound.own left leftOld right rightOld token leftCarries rightCarries
    · rcases tokens token rightCarries with before | fresh
      · exact absurd (sound.own left leftOld worker mem token leftCarries before) leftApart
      · exact absurd fresh (unused left leftOld token leftCarries)
  rcases mem_amend.mp rightIn with ⟨rightOld,rightApart⟩ | ⟨_,_,_,rfl⟩
  · rcases tokens token leftCarries with before | fresh
    · exact absurd (sound.own right rightOld worker mem token rightCarries before) rightApart
    · exact absurd fresh (unused right rightOld token rightCarries)
  rfl

theorem step_sound {next} (sound : Sound world) (step : Step parses world event next) : Sound next := by
  obtain ⟨rfl,admissible⟩ := step
  cases event with
  | accept change targets indexApplied now =>
    simp only [advance]
    rcases accept_cases world.db change targets indexApplied now with same | ⟨receipt,rows,accepts,shape⟩
    · rw [same]; exact sound
    rw [shape]
    exact ⟨sound.consistent.accepted accepts,sound.workers, fun worker mem row carried => (sound.known worker mem row carried).accepted accepts,
      sound.issued,sound.own⟩
  | invoke id options =>
    simp only [advance]
    split
    · have idle : ∀ other ∈ world.workers++[⟨id,limitFor options,0,.sweeping,⟨0,0,0,0,0⟩⟩],
          other ∈ world.workers ∨ other.phase = .sweeping := by
        intro _ there
        rcases mem_append.mp there with old | new
        · exact .inl old
        exact .inr (by rw [mem_singleton.mp new])
      refine ⟨sound.consistent,sound.workers.add admissible,?_,?_,?_⟩
      · intro other there row carried
        rcases idle other there with old | sweeping
        · exact sound.known other old row carried
        rw [sweeping] at carried; cases carried
      · intro other there token carried
        rcases idle other there with old | sweeping
        · exact sound.issued other old token carried
        rw [sweeping] at carried; cases carried
      intro left leftIn right rightIn token leftCarries rightCarries
      rcases idle left leftIn with leftOld | sweeping
      · rcases idle right rightIn with rightOld | sweeping
        · exact sound.own left leftOld right rightOld token leftCarries rightCarries
        · rw [sweeping] at rightCarries; cases rightCarries
      rw [sweeping] at leftCarries; cases leftCarries
    exact sound
  | die id =>
    have left : ∀ other ∈ drop Worker.id world.workers id, other ∈ world.workers := fun _ there => (mem_drop.mp there).1
    exact ⟨sound.consistent,sound.workers.drop,fun other there => sound.known other (left other there),
      fun other there => sound.issued other (left other there),
      fun one oneIn two twoIn => sound.own one (left one oneIn) two (left two twoIn)⟩
  | _ => exact statement_preserves parses sound admissible trivial

theorem initial_sound : Sound .initial := by
  have none : ∀ {α : Type} (x : α), x ∉ ([] : List α) := fun _ => not_mem_nil
  exact ⟨⟨nodup_nil,nodup_nil,fun job there => absurd there (none job),fun job there => absurd there (none job),
    fun receipt there => absurd there (none receipt),fun job there => absurd there (none job),
    fun job there => absurd there (none job)⟩,nodup_nil,fun worker there => absurd there (none worker),
    fun worker there => absurd there (none worker),fun worker there => absurd there (none worker)⟩

abbrev Taken := Transition World Event

def ByHolder (taken : Taken) (job : Job) : Prop :=
  ∃ worker ∈ taken.before.workers, taken.event.worker = some worker.id ∧ ∃ token, job.leaseToken = some token ∧
    worker.phase.token = some token ∧ ∀ other ∈ taken.before.workers, other.phase.token = some token → other = worker

def BySweep (taken : Taken) (job next : Job) : Prop :=
  ∃ id now, taken.event = .sweep id now ∧ maxAttempts ≤ job.attemptCount ∧ elapsed job.leaseExpiresAt now = true ∧
    next.status = .failed

structure Projected (taken : Taken) : Prop where
  ordered : ∀ job ∈ taken.before.db.jobs, ∀ next ∈ taken.after.db.jobs, next.key = job.key → next ≠ job →
    next.status = .processing → ∀ earlier ∈ taken.before.db.jobs, Earlier taken.before.db earlier job → terminal earlier = true
  settled : ∀ job ∈ taken.before.db.jobs, terminal job = true → job ∈ taken.after.db.jobs
  attempts : ∀ job ∈ taken.after.db.jobs, job.attemptCount ≤ 3
  released : ∀ job ∈ taken.before.db.jobs, ∀ next ∈ taken.after.db.jobs, next.key = job.key →
    job.status = .processing → next.status ≠ .processing → ByHolder taken job ∨ BySweep taken job next

theorem kept_projected (sound : Sound final) (kept : ∀ job ∈ origin.db.jobs, job ∈ final.db.jobs) : Projected ⟨origin,event,final⟩ := by
  have same : ∀ job ∈ origin.db.jobs, ∀ next ∈ final.db.jobs, next.key = job.key → next = job :=
    fun job mem next there key => sound.consistent.keyed.unique there (kept job mem) key
  refine ⟨?_,fun job mem _ => kept job mem,sound.consistent.attempts,?_⟩
  · exact fun job mem next there key changed => absurd (same job mem next there key) changed
  intro job mem next there key processing released
  rw [same job mem next there key] at released
  exact absurd processing released

theorem statement_projected (sound : Sound world) (admissible : Admissible world event) (statement : Statement event) :
    Projected ⟨world,event,advance parses world event⟩ := by
  have after := statement_preserves parses sound admissible statement
  rcases statement_cases parses world statement with same | ⟨worker,mem,named,shape⟩
  · rw [same]; exact kept_projected sound fun _ there => there
  obtain ⟨change,jobs,moves⟩ := run_rewritten parses event sound.consistent (sound.known worker mem)
  have listed : (advance parses world event).db.jobs = world.db.jobs.map change := by rw [shape]; simp only [jobs]
  have changed : ∀ job ∈ world.db.jobs, ∀ next ∈ (advance parses world event).db.jobs, next.key = job.key →
      next = job ∨ Move world.db worker event job next := by
    intro _ here _ there key
    rw [listed] at there
    obtain ⟨old,oldIn,rfl⟩ := mem_map.mp there
    obtain rfl := sound.consistent.keyed.unique oldIn here ((moves old oldIn).1.symm.trans key)
    exact (moves old oldIn).2.2
  refine ⟨?_,?_,after.consistent.attempts,?_⟩
  · intro job here next there key different processing
    rcases changed job here next there key with same | move
    · exact absurd same different
    cases move with
    | claimed _ _ _ _ ordered => exact ordered
    | settled _ _ _ _ _ released => exact absurd processing released
    | swept _ _ _ _ _ failed => cases failed.symm.trans processing
  · intro job here settled
    have still : change job = job := by
      rcases (moves job here).2.2 with same | move
      · exact same
      cases move.unsettled.symm.trans settled
    exact listed ▸ mem_map.mpr ⟨job,here,still⟩
  intro job here next there key processing released
  rcases changed job here next there key with same | move
  · rw [same] at released; exact absurd processing released
  cases move with
  | claimed _ _ _ _ _ _ _ status => exact absurd status released
  | settled token carried held =>
    refine .inl ⟨worker,mem,named,token,held,carried,fun other otherIn otherCarried => ?_⟩
    exact sound.workers.unique otherIn mem (sound.own other otherIn worker mem token otherCarried carried)
  | swept id now sweeps due _ failed =>
    simp only [exhausted,Bool.and_eq_true,decide_eq_true_eq] at due
    exact .inr ⟨id,now,sweeps,due.1.2,due.2,failed⟩

theorem step_projected {next} (sound : Sound world) (step : Step parses world event next) : Projected ⟨world,event,next⟩ := by
  have after := step_sound sound step
  obtain ⟨rfl,admissible⟩ := step
  cases event with
  | accept change targets indexApplied now =>
    refine kept_projected after fun job mem => ?_
    simp only [advance]
    rcases accept_cases world.db change targets indexApplied now with same | ⟨receipt,rows,_,shape⟩
    · rw [same]; exact mem
    rw [shape]; exact mem_append_left _ mem
  | invoke =>
    refine kept_projected after fun job mem => ?_
    simp only [advance]
    split <;> exact mem
  | die => exact kept_projected after fun job mem => mem
  | _ => exact statement_projected sound admissible trivial

theorem delivery_projection_ordered (parses : String → Bool) (history : List Taken) (final : World)
    (path : Runs (Recorded (Step parses)) .initial history final) : ∀ taken ∈ history, Projected taken := by
  rintro ⟨before,event,after⟩ member
  obtain ⟨front,back,split⟩ := append_of_mem member
  obtain ⟨prior,step⟩ := path.reached split
  have sound : Sound before := prior.events.preserves Sound (fun _ _ _ sound step => step_sound sound step) initial_sound
  exact step_projected sound step

instance (world : World) : (event : Event) → Decidable (Admissible world event)
  | .invoke id _ _ => inferInstanceAs (Decidable (∀ worker ∈ world.workers, worker.id ≠ id))
  | .find _ _ leaseToken => inferInstanceAs (Decidable (leaseToken ∉ world.issued))
  | .accept _ _ _ _ => .isTrue trivial
  | .sweep _ _ => .isTrue trivial
  | .claim _ _ => .isTrue trivial
  | .stage _ _ => .isTrue trivial
  | .complete _ _ _ => .isTrue trivial
  | .retry _ _ => .isTrue trivial
  | .die _ => .isTrue trivial

def exampleChange : Change :=
  ⟨"00112233445566778899aabbccddeeff00112233445566778899aabbccddeeff","photos/map.jpg","version",some "etag",true, "2026-01-01T00:00:00.000Z"⟩

def exampleEvents : List Event :=
  [.accept exampleChange [("grant",1,"staff")] true 0, .invoke 1 none true,.sweep 1 0,.find 1 0 "lease-token-one-",.claim 1 0,.die 1,
    .invoke 2 none true,.sweep 2 300000,.find 2 300000 "lease-token-two-",.claim 2 300000,.die 2,
    .invoke 3 none true,.sweep 3 600000,.find 3 600000 "lease-token-three",.claim 3 600000,
    .invoke 4 none true]

def exampleWorld : World := exampleEvents.foldl (advance fun _ => true) .initial

theorem example_admitted : Admitted (advance fun _ => true) Admissible .initial (exampleEvents++[.sweep 4 900000]) := by
  decide +kernel

theorem example_last : ⟨exampleWorld,.sweep 4 900000,advance (fun _ => true) exampleWorld (.sweep 4 900000)⟩ ∈
    trace (advance fun _ => true) .initial (exampleEvents++[.sweep 4 900000]) := by
  rw [trace_concat]
  exact mem_append_right _ (mem_singleton.mpr rfl)

theorem sweep_fails_held_job : ∃ parses history final, Runs (Recorded (Step parses)) .initial history final ∧
      ∃ taken ∈ history, ∃ job ∈ taken.before.db.jobs, ∃ next ∈ taken.after.db.jobs, next.key = job.key ∧
        job.status = .processing ∧ next.status ≠ .processing ∧ ¬ByHolder taken job := by
  have idle : ∀ worker ∈ exampleWorld.workers, worker.id = 4 → worker.phase.token = none := by decide +kernel
  have failed : ∃ job ∈ exampleWorld.db.jobs, ∃ next ∈ (advance (fun _ => true) exampleWorld (.sweep 4 900000)).db.jobs,
      next.key = job.key ∧ job.status = .processing ∧ next.status ≠ .processing := by decide +kernel
  obtain ⟨job,member,next,there,facts⟩ := failed
  refine ⟨_,_,_,Runs.recorded_admitted _ _ _ example_admitted,_,example_last, job,member,next,there,facts.1,facts.2.1,facts.2.2,?_⟩
  rintro ⟨worker,listed,named,_,_,carried,_⟩
  rw [idle worker listed (Option.some.inj named).symm] at carried
  cases carried

theorem delivery_projection_ordered_example : Projected ⟨exampleWorld,.sweep 4 900000,advance (fun _ => true) exampleWorld (.sweep 4 900000)⟩ :=
  delivery_projection_ordered (fun _ => true) _ _ (Runs.recorded_admitted _ _ _ example_admitted) _ example_last
end LedgeTopOps.DeliveryOrder
