import LedgeTopOps.TransferEffects

namespace LedgeTopOps.TransferSchedule
open List hiding drop
open JsonTree TransferRecord QueueDocument KeyedRows StepRuns TransferQueue TransferEffects

structure Scheduled (queue : Queue) : Prop where
  oneWorker : queue.workers.length ≤ 1
  oneRunning : (queue.jobs.filter fun job => job.state == .running).length ≤ 1
  runningActive : ∀ job ∈ queue.jobs, job.state = .running → queue.activeJob = some job.jobId
  oneOpen : ∀ resourceReference destination, (queue.jobs.filter fun job =>
    job.resourceReference == resourceReference && job.destination == destination && !job.state.isOver).length ≤ 1

def HandsOut (reservation : StartReservation) (taken : Transition World Event) : Prop :=
  taken.event = .prepareStart reservation.jobId ∧
    ∃ queue ∈ taken.before.queue, prepareStart queue reservation.jobId = some reservation

def Stops (jobId : Guid) (taken : Transition World Event) : Prop :=
  (∃ requested abandoned fresh disk, taken.event = .stopAsync jobId requested abandoned fresh disk) ∧ taken.after.queue ≠ taken.before.queue

def Starts (reservation : StartReservation) (taken : Transition World Event) : Prop :=
  ∃ queue ∈ taken.before.queue, ∃ call fresh disk, taken.event = .act call.id fresh disk ∧
    find Call.id queue.calls call.id = some call ∧ call.request = .start reservation

def MovesToRunning (jobId : Guid) (taken : Transition World Event) : Prop :=
  ∃ queue ∈ taken.before.queue, ∃ next ∈ taken.after.queue, ∃ job ∈ next.jobs,
    job.jobId = jobId ∧ job.state = .running ∧ job ∉ queue.jobs

structure SchedulingSafe (history : List (Transition World Event)) (world : World) : Prop where
  scheduled : ∀ queue ∈ world.queue, queue.storageFault = none → Scheduled queue
  absorbing : ∀ taken ∈ history, ∀ earlier ∈ taken.before.queue, earlier.storageFault = none →
    ∀ later ∈ world.queue, later.storageFault = none → ∀ job ∈ earlier.jobs, job.state.isOver = true → job ∈ later.jobs
  superseded : ∀ reservation handed stopped started, [handed,stopped,started].Sublist history →
    HandsOut reservation handed → Stops reservation.jobId stopped → Starts reservation started →
    ¬MovesToRunning reservation.jobId started

structure Orderly (issued : List Guid) (jobs : List QueuedTransfer) : Prop where
  keyed : Keyed QueuedTransfer.jobId jobs
  known : ∀ job ∈ jobs, job.jobId ∈ issued
  exclusive : ∀ left ∈ jobs, ∀ right ∈ jobs, left.resourceReference = right.resourceReference →
    left.destination = right.destination → left.state.isOver = false → right.state.isOver = false → left = right

structure Coherent (schedule : Schedule) : Prop where
  lone : schedule.workers = [] ∧ schedule.activeJob = none ∨
    ∃ worker, schedule.workers = [worker] ∧ schedule.activeJob = some worker.job.jobId
  running : ∀ job ∈ schedule.jobs, job.state = .running →
    ∃ worker ∈ schedule.workers, worker.job.jobId = job.jobId ∧ worker.stage ≠ .clearing
  working : ∀ worker ∈ schedule.workers, worker.stage ≠ .clearing →
    ∃ job ∈ schedule.jobs, job.jobId = worker.job.jobId ∧ job.state = .running
  stops : schedule.stopState = .paused ∨ schedule.stopState = .cancelled
  ends : ∀ worker ∈ schedule.workers, ∀ outcome, worker.stage = .finishing outcome → Ended outcome

structure Valid (world : World) : Prop where
  durable : ∀ committed ∈ world.committed, Orderly world.issued committed.jobs
  file : world.file = world.committed.map fun committed => document committed.owner committed.jobs
  live : ∀ queue ∈ world.queue, queue.storageFault = none →
    Coherent queue.toSchedule ∧ world.committed = some ⟨queue.owner,queue.jobs⟩

section

theorem Orderly.mono (orderly : Orderly issued jobs) (grown : issued ⊆ wider) : Orderly wider jobs :=
  ⟨orderly.keyed,fun job mem => grown (orderly.known job mem),orderly.exclusive⟩

theorem Orderly.nil : Orderly issued [] := ⟨nodup_nil,forall_mem_nil _,forall_mem_nil _⟩

theorem Orderly.map (orderly : Orderly issued jobs) (change : QueuedTransfer → QueuedTransfer)
    (same : ∀ job ∈ jobs, (change job).jobId = job.jobId ∧ (change job).resourceReference = job.resourceReference ∧ (change job).destination = job.destination)
    (shut : ∀ job ∈ jobs, (change job).state.isOver = false → job.state.isOver = false) : Orderly issued (jobs.map change) := by
  refine ⟨?_,?_,?_⟩
  · have ids : (jobs.map change).map QueuedTransfer.jobId = jobs.map QueuedTransfer.jobId := by
      rw [map_map]
      exact map_congr_left fun job mem => (same job mem).1
    rw [Keyed,ids]
    exact orderly.keyed
  · intro _ mem
    obtain ⟨old,there,rfl⟩ := mem_map.mp mem
    rw [(same old there).1]
    exact orderly.known old there
  intro _ here _ there reference destination leftOpen rightOpen
  obtain ⟨first,inside,rfl⟩ := mem_map.mp here
  obtain ⟨second,within,rfl⟩ := mem_map.mp there
  obtain ⟨_,firstReference,firstDestination⟩ := same first inside
  obtain ⟨_,secondReference,secondDestination⟩ := same second within
  have equal := orderly.exclusive first inside second within (by rw [←firstReference,←secondReference,reference])
    (by rw [←firstDestination,←secondDestination,destination]) (shut first inside leftOpen) (shut second within rightOpen)
  rw [equal]

theorem Orderly.amend (orderly : Orderly issued jobs) (change : QueuedTransfer → QueuedTransfer)
    (same : ∀ job, (change job).jobId = job.jobId ∧ (change job).resourceReference = job.resourceReference ∧
      (change job).destination = job.destination) (found : find QueuedTransfer.jobId jobs jobId = some target) (open_ : target.state.isOver = false) :
    Orderly issued (amend QueuedTransfer.jobId jobs jobId change) := by
  obtain ⟨there,rfl⟩ := find_some found
  apply orderly.map
  · intro job member
    split
    · exact same job
    exact ⟨rfl,rfl,rfl⟩
  · intro job member
    split
    · rename_i here
      intro _
      rw [orderly.keyed.unique member there here]
      exact open_
    exact id

theorem interrupted_over (job : QueuedTransfer) : (interrupted job).state.isOver = job.state.isOver := by
  unfold interrupted
  split
  · rename_i running; rw [running]; rfl
  rfl

theorem interrupted_settled (job : QueuedTransfer) : (interrupted job).state ≠ .running := by
  unfold interrupted
  split
  · exact nofun
  rename_i settled; exact settled

theorem Orderly.interrupted (orderly : Orderly issued jobs) : Orderly issued (jobs.map interrupted) := by
  apply orderly.map
  · intro job _
    unfold TransferQueue.interrupted
    split <;> exact ⟨rfl,rfl,rfl⟩
  · intro _ _ open_
    rw [interrupted_over] at open_
    exact open_

theorem Orderly.add (orderly : Orderly issued jobs) (fresh : job.jobId ∉ issued)
    (apart : ∀ old ∈ jobs, old.resourceReference = job.resourceReference → old.destination = job.destination →
      old.state.isOver) : Orderly (job.jobId :: issued) (jobs++[job]) := by
  refine ⟨?_,?_,?_⟩
  · apply orderly.keyed.add
    intro old there same
    exact fresh (same ▸ orderly.known old there)
  · intro row mem
    rcases mem_snoc.mp mem with old | rfl
    · exact mem_cons_of_mem _ (orderly.known row old)
    exact mem_cons_self
  intro left here right there reference destination leftOpen rightOpen
  rcases mem_append.mp here with first | new <;> rcases mem_append.mp there with second | last
  · exact orderly.exclusive left first right second reference destination leftOpen rightOpen
  · cases mem_singleton.mp last
    rw [apart left first reference destination] at leftOpen
    cases leftOpen
  · cases mem_singleton.mp new
    rw [apart right second reference.symm destination.symm] at rightOpen
    cases rightOpen
  rw [mem_singleton.mp new,mem_singleton.mp last]
end

section

theorem leaves_moves (leaves : Leaves platform queue worker target) (stops : queue.stopState = .paused ∨ queue.stopState = .cancelled) :
    worker.stage ≠ .clearing ∧ Proceeds target := by
  cases leaves with
  | ran stage => exact ⟨by rw [stage]; exact nofun,runAsync_proceeds _ _ _ _ _ _⟩
  | settled stage =>
    refine ⟨by rw [stage]; exact nofun,?_⟩
    rcases stops with paused | cancelled
    · exact ended_uncoded (by rw [paused]; exact nofun) (by rw [paused]; exact nofun)
    exact ended_uncoded (by rw [cancelled]; exact nofun) (by rw [cancelled]; exact nofun)

theorem proceeds_stays (moved : Proceeds target) : target ≠ .clearing := by
  intro same
  rw [same] at moved
  exact moved

theorem Coherent.only (coherent : Coherent schedule) (found : find Worker.id schedule.workers worker.id = some worker) :
    schedule.workers = [worker] ∧ schedule.activeJob = some worker.job.jobId := by
  obtain ⟨mem,_⟩ := find_some found
  rcases coherent.lone with ⟨empty,_⟩ | ⟨other,one,active⟩
  · rw [empty] at mem
    cases mem
  rw [one] at mem
  cases mem_singleton.mp mem
  exact ⟨one,active⟩

theorem turn_owner (turn : Turn platform queue event schedule) : schedule.owner = queue.owner := by
  cases turn <;> rfl

theorem edit_owner (edit : Edit queue event schedule) : schedule.owner = queue.owner := by
  cases edit <;> rfl

theorem turn_healthy (turn : Turn platform queue event schedule) (healthy : schedule.storageFault = none) : queue.storageFault = none := by
  cases turn with
  | fault => cases healthy
  | _ => exact healthy

theorem turn_coherent (turn : Turn platform queue event schedule) (coherent : Coherent queue.toSchedule)
    (healthy : schedule.storageFault = none) : Coherent schedule ∧ schedule.jobs = queue.jobs := by
  cases turn with
  | same => exact ⟨coherent,rfl⟩
  | mark requested _ restricts =>
    refine ⟨⟨coherent.lone,coherent.running,coherent.working,?_,coherent.ends⟩,rfl⟩
    rcases restricts with rfl | rfl
    · exact coherent.stops
    cases requested with
    | pause => exact .inl rfl
    | cancel => exact .inr rfl
  | @stage next _ worker found leaves =>
    obtain ⟨one,active⟩ := coherent.only found
    obtain ⟨before,moved⟩ := leaves_moves leaves coherent.stops
    have now : amend Worker.id queue.workers worker.id (fun row => { row with stage := next }) = [{ worker with stage := next }] := by rw [one]; simp [amend]
    refine ⟨⟨.inr ⟨_,now,active⟩,?_,?_,coherent.stops,?_⟩,rfl⟩
    · intro job mem runs
      obtain ⟨_,there,same,_⟩ := coherent.running job mem runs
      rw [one] at there
      cases mem_singleton.mp there
      exact ⟨{ worker with stage := next },now ▸ mem_singleton_self _,same,proceeds_stays moved⟩
    · intro _ there _
      rw [now] at there
      cases mem_singleton.mp there
      exact coherent.working worker (by rw [one]; exact mem_singleton_self _) before
    intro _ there outcome stage
    rw [now] at there
    cases mem_singleton.mp there
    change next = .finishing outcome at stage
    rw [stage] at moved
    exact moved
  | fault => cases healthy
  | clear worker found stage =>
    obtain ⟨one,_⟩ := coherent.only found
    have none_left : drop Worker.id queue.workers worker.id = [] := by rw [one]; simp [drop]
    refine ⟨⟨.inl ⟨none_left,rfl⟩,?_,?_,coherent.stops,?_⟩,rfl⟩
    · intro job mem runs
      obtain ⟨_,there,_,open_⟩ := coherent.running job mem runs
      rw [one] at there
      cases mem_singleton.mp there
      exact absurd stage open_
    · intro _ there
      rw [none_left] at there
      cases there
    intro _ there
    rw [none_left] at there
    cases there

theorem Coherent.runs (coherent : Coherent schedule) (keyed : Keyed QueuedTransfer.jobId schedule.jobs)
    (found : find Worker.id schedule.workers worker.id = some worker) (stage : worker.stage ≠ .clearing) :
    ∃ job, find QueuedTransfer.jobId schedule.jobs worker.job.jobId = some job ∧ job.state = .running := by
  obtain ⟨job,there,same,runs⟩ := coherent.working worker (find_some found).1 stage
  exact ⟨job,same ▸ keyed.find there,runs⟩

theorem edit_target (edit : Edit queue event schedule) (coherent : Coherent queue.toSchedule) (keyed : Keyed QueuedTransfer.jobId queue.jobs) :
    (∃ call resourceReference localPath resolved fresh disk, event = .act call fresh disk ∧
      schedule.jobs = queue.jobs++[enqueued fresh resourceReference localPath resolved] ∧
      ∀ old ∈ queue.jobs, old.resourceReference = resourceReference → old.destination = localPath → old.state.isOver) ∨
    ∃ jobId target change, find QueuedTransfer.jobId queue.jobs jobId = some target ∧ target.state.isOver = false ∧
      schedule.jobs = amend QueuedTransfer.jobId queue.jobs jobId change ∧
      ∀ job, (change job).jobId = job.jobId ∧ (change job).resourceReference = job.resourceReference ∧ (change job).destination = job.destination := by
  cases edit with
  | enqueue _ _ _ _ _ apart => exact .inl ⟨_,_,_,_,_,_,rfl,rfl,apart⟩
  | start _ _ _ _ found _ _ ready =>
    exact .inr ⟨_,_,begun,found,ready,rfl,fun _ => ⟨rfl,rfl,rfl⟩⟩
  | @stop _ _ requested _ _ _ found inactive open_ =>
    exact .inr ⟨_,_,restricted requested,found,open_,rfl,fun _ => ⟨rfl,rfl,rfl⟩⟩
  | @finish outcome _ worker found stage =>
    obtain ⟨job,target,runs⟩ := coherent.runs keyed found (by rw [stage]; exact nofun)
    exact .inr ⟨_,job,finished outcome,target,by rw [runs]; rfl,rfl,fun _ => ⟨rfl,rfl,rfl⟩⟩

theorem edit_orderly (edit : Edit queue event schedule) (coherent : Coherent queue.toSchedule)
    (orderly : Orderly issued queue.jobs) (fresh : ∀ guid ∈ event.fresh, guid ∉ issued) : Orderly (event.fresh.toList++issued) schedule.jobs := by
  rcases edit_target edit coherent orderly.keyed with
    ⟨_,reference,path,resolved,guid,_,rfl,jobs,apart⟩ | ⟨_,_,change,found,open_,jobs,same⟩
  · rw [jobs]
    have unused : (enqueued guid reference path resolved).jobId ∉ issued := fresh guid rfl
    exact orderly.add unused apart
  rw [jobs]
  exact (orderly.amend change same found open_).mono (subset_append_right _ _)

theorem edit_absorbs (edit : Edit queue event schedule) (coherent : Coherent queue.toSchedule)
    (keyed : Keyed QueuedTransfer.jobId queue.jobs) (member : job ∈ queue.jobs) (shut : job.state.isOver) : job ∈ schedule.jobs := by
  rcases edit_target edit coherent keyed with ⟨_,_,_,_,_,_,_,jobs,_⟩ | ⟨_,_,_,found,open_,jobs,_⟩
  · rw [jobs]
    exact mem_append_left _ member
  rw [jobs]
  obtain ⟨there,rfl⟩ := find_some found
  refine mem_amend.mpr (.inl ⟨member,fun same => ?_⟩)
  rw [keyed.unique member there same,open_] at shut
  cases shut

theorem edit_coherent (edit : Edit queue event schedule) (coherent : Coherent queue.toSchedule) : Coherent schedule := by
  cases edit with
  | enqueue _ mem =>
    refine ⟨coherent.lone,?_,?_,coherent.stops,coherent.ends⟩
    · intro job mem runs
      rcases mem_snoc.mp mem with old | rfl
      · exact coherent.running job old runs
      cases runs
    intro worker there stage
    obtain ⟨job,mem,same,runs⟩ := coherent.working worker there stage
    exact ⟨job,mem_append_left _ mem,same,runs⟩
  | start _ mem _ _ found _ idle =>
    have empty : queue.workers = [] := by
      rcases coherent.lone with ⟨empty,_⟩ | ⟨_,_,active⟩
      · exact empty
      rw [idle] at active
      cases active
    obtain ⟨there,same⟩ := find_some found
    refine ⟨.inr ⟨_,by rw [empty]; rfl,by rw [same]⟩,?_,?_,.inl rfl,?_⟩
    · intro other mem runs
      refine ⟨_,mem_append_right _ (mem_singleton_self _),?_,nofun⟩
      rcases mem_amend.mp mem with ⟨old,_⟩ | ⟨old,inside,here,rfl⟩
      · obtain ⟨_,working,_⟩ := coherent.running other old runs
        rw [empty] at working
        cases working
      exact same.trans here.symm
    · intro _ within _
      rw [empty] at within
      cases mem_singleton.mp within
      exact ⟨_,mem_amend.mpr (.inr ⟨_,there,same,rfl⟩),rfl,rfl⟩
    intro _ within _ stage
    rw [empty] at within
    cases mem_singleton.mp within
    cases stage
  | @stop _ jobId requested _ _ _ found inactive open_ =>
    refine ⟨coherent.lone,?_,?_,coherent.stops,coherent.ends⟩
    · intro job mem runs
      rcases mem_amend.mp mem with ⟨old,_⟩ | ⟨old,_,_,rfl⟩
      · exact coherent.running job old runs
      cases requested <;> cases runs
    intro worker there stage
    obtain ⟨job,mem,same,runs⟩ := coherent.working worker there stage
    refine ⟨job,mem_amend.mpr (.inl ⟨mem,fun here => ?_⟩),same,runs⟩
    rcases coherent.lone with ⟨empty,_⟩ | ⟨other,one,active⟩
    · rw [empty] at there
      cases there
    rw [one] at there
    cases mem_singleton.mp there
    exact inactive (by rw [active,←same,here])
  | @finish outcome _ worker found stage =>
    obtain ⟨one,active⟩ := coherent.only found
    have now : amend Worker.id queue.workers worker.id (fun row => { row with stage := .clearing }) =
        [{ worker with stage := .clearing }] := by rw [one]; simp [amend]
    refine ⟨.inr ⟨_,now,active⟩,?_,?_,coherent.stops,?_⟩
    · intro job mem runs
      rcases mem_amend.mp mem with ⟨old,apart⟩ | ⟨old,_,_,rfl⟩
      · obtain ⟨_,there,same,_⟩ := coherent.running job old runs
        rw [one] at there
        cases mem_singleton.mp there
        exact absurd same.symm apart
      exact absurd runs (coherent.ends worker (find_some found).1 outcome stage).running
    · intro _ there open_
      rw [now] at there
      cases mem_singleton.mp there
      exact absurd rfl open_
    intro _ there _ ending
    rw [now] at there
    cases mem_singleton.mp there
    cases ending
end

section
variable {platform : Platform} {world after : World} {queue next : Queue}

theorem stored_committed (valid : Valid world) (read : stored platform owner world = .ok values) :
    (world.committed = none ∧ values = []) ∨ world.committed = some ⟨owner,values⟩ := by
  unfold stored at read
  rw [valid.file] at read
  cases committed : world.committed with
  | none =>
    rw [committed] at read
    cases read
    exact .inl ⟨rfl,rfl⟩
  | some =>
    rw [committed] at read
    obtain ⟨rfl,rfl,_⟩ := readState_ok.mp read
    exact .inr rfl

theorem stored_orderly (valid : Valid world) (read : stored platform owner world = .ok values) : Orderly world.issued values := by
  rcases stored_committed valid read with ⟨_,rfl⟩ | saved
  · exact .nil
  exact valid.durable _ saved

theorem opened_coherent (world : World) (owner : Owner) (values : List QueuedTransfer) :
    Coherent (newQueue world owner (values.map interrupted)).toSchedule := by
  have idle : ∀ worker ∈ (newQueue world owner (values.map interrupted)).workers, False := by
    intro _ there
    exact not_mem_nil there
  refine ⟨.inl ⟨rfl,rfl⟩,?_,fun worker there => (idle worker there).elim,.inl rfl,fun worker there => (idle worker there).elim⟩
  intro _ mem runs
  obtain ⟨old,_,rfl⟩ := mem_map.mp mem
  exact absurd runs (interrupted_settled old)

theorem initial_closed : ∀ queue ∈ World.initial.queue, False := by
  intro _ held
  cases held

theorem initial_uncommitted : ∀ committed ∈ World.initial.committed, False := by
  intro _ there
  cases there

theorem initial_valid : Valid World.initial :=
  ⟨fun committed there => (initial_uncommitted committed there).elim,rfl, fun queue held => (initial_closed queue held).elim⟩

theorem step_valid (valid : Valid world) (step : Step platform world event after) : Valid after := by
  obtain ⟨rfl,admissible,_⟩ := step
  have noted := advance_issued platform world event
  have grown : world.issued ⊆ (advance platform world event).issued := by
    exact subset_append_right _ _
  have unchanged (kept : (advance platform world event).committed = world.committed) : ∀ committed ∈ (advance platform world event).committed,
        Orderly (advance platform world event).issued committed.jobs := by
    intro committed there
    rw [kept] at there
    exact (valid.durable committed there).mono grown
  cases advance_effect platform world event with
  | closed gone kept file =>
    refine ⟨unchanged kept,by rw [file,kept,valid.file],?_⟩
    intro _ there
    rw [gone] at there
    cases there
  | opened owner values read _ queue saved file =>
    refine ⟨?_,by rw [file,saved]; rfl,?_⟩
    · intro _ there
      rw [saved] at there
      cases there
      exact (stored_orderly valid read).interrupted.mono grown
    intro _ there _
    rw [queue] at there
    cases there
    exact ⟨opened_coherent world owner values,saved⟩
  | reserved queue before _ _ now kept file =>
    refine ⟨unchanged kept,by rw [file,kept,valid.file],?_⟩
    intro _ there healthy
    rw [now] at there
    cases there
    obtain ⟨coherent,saved⟩ := valid.live queue before healthy
    exact ⟨coherent,by rw [kept,saved]⟩
  | turned queue _ before now turn _ kept file =>
    refine ⟨unchanged kept,by rw [file,kept,valid.file],?_⟩
    intro _ there healthy
    rw [now] at there
    cases there
    obtain ⟨coherent,saved⟩ := valid.live queue before (turn_healthy turn healthy)
    obtain ⟨holds,jobs⟩ := turn_coherent turn coherent healthy
    exact ⟨holds,by rw [kept,saved,turn_owner turn,jobs]⟩
  | saved queue _ before now healthy _ edit _ saved file =>
    obtain ⟨coherent,written⟩ := valid.live queue before healthy
    have orderly := valid.durable _ written
    refine ⟨?_,by rw [file,saved]; rfl,?_⟩
    · intro _ there
      rw [saved] at there
      cases there
      exact edit_orderly edit coherent orderly fun guid drawn => (admissible guid drawn).2
    intro _ there _
    rw [now] at there
    cases there
    exact ⟨edit_coherent edit coherent,by rw [saved,edit_owner edit]⟩

def savedJobs (world : World) : List QueuedTransfer := world.committed.elim [] Committed.jobs

theorem Valid.saved_jobs (valid : Valid world) (held : world.queue = some queue) (healthy : queue.storageFault = none) : savedJobs world = queue.jobs := by
  rw [savedJobs,(valid.live queue held healthy).2]
  rfl

theorem step_absorbs (valid : Valid world) (step : Step platform world event after) (member : job ∈ savedJobs world)
    (shut : job.state.isOver) : job ∈ savedJobs after := by
  obtain ⟨rfl,_⟩ := step
  have same (kept : (advance platform world event).committed = world.committed) : job ∈ savedJobs (advance platform world event) := by
    unfold savedJobs
    rw [kept]
    exact member
  cases advance_effect platform world event with
  | closed gone kept file count handed | reserved queue before asked handed now kept file count
  | turned _ _ _ _ _ _ kept => exact same kept
  | opened owner values read fitting queue saved file count handed =>
    rw [savedJobs,saved]
    rcases stored_committed valid read with ⟨none_yet,_⟩ | last
    · rw [savedJobs,none_yet] at member
      cases member
    rw [savedJobs,last] at member
    refine mem_map.mpr ⟨job,member,?_⟩
    unfold interrupted
    split
    · rename_i runs; rw [runs] at shut; cases shut
    rfl
  | saved queue _ before _ healthy _ edit _ saved =>
    obtain ⟨coherent,written⟩ := valid.live queue before healthy
    rw [valid.saved_jobs before healthy] at member
    rw [savedJobs,saved]
    exact edit_absorbs edit coherent (valid.durable _ written).keyed member shut

theorem scheduled_of_valid (valid : Valid world) (held : world.queue = some queue) (healthy : queue.storageFault = none) : Scheduled queue := by
  obtain ⟨coherent,written⟩ := valid.live queue held healthy
  have orderly := valid.durable _ written
  have distinct : queue.jobs.Nodup := List.Nodup.of_map _ orderly.keyed
  have single (choice : QueuedTransfer → Bool) (same : ∀ left ∈ queue.jobs, ∀ right ∈ queue.jobs,
      choice left → choice right → left = right) : (queue.jobs.filter choice).length ≤ 1 := by
    apply single_of_same (distinct.filter choice)
    intro left here right there
    obtain ⟨first,chosen⟩ := mem_filter.mp here
    obtain ⟨second,picked⟩ := mem_filter.mp there
    exact same left first right second chosen picked
  have active : ∀ job ∈ queue.jobs, job.state = .running → queue.activeJob = some job.jobId := by
    intro job mem runs
    obtain ⟨_,there,same,_⟩ := coherent.running job mem runs
    rcases coherent.lone with ⟨empty,_⟩ | ⟨other,one,active⟩
    · rw [empty] at there
      cases there
    rw [one] at there
    cases mem_singleton.mp there
    rw [active,same]
  refine ⟨?_,?_,active,?_⟩
  · rcases coherent.lone with ⟨empty,_⟩ | ⟨_,one,_⟩
    · rw [empty]; exact Nat.zero_le 1
    · rw [one]; exact Nat.le_refl 1
  · apply single
    intro left here right there first second
    have ids := (active left here (by simpa using first)).symm.trans (active right there (by simpa using second))
    exact orderly.keyed.unique here there (Option.some.inj ids)
  intro _ _
  apply single
  intro left here right there first second
  simp only [Bool.and_eq_true,beq_iff_eq,Bool.not_eq_true'] at first second
  exact orderly.exclusive left here right there (by rw [first.1.1,second.1.1]) (by rw [first.1.2,second.1.2]) first.2 second.2

-- Who holds which generation: reservations speak of queues opened so far and of
-- generations drawn so far, and a queue records starts of its own only.
structure Traceable (world : World) : Prop where
  identity : ∀ queue ∈ world.queue, queue.identity < world.opened
  marks : ∀ queue ∈ world.queue, ∀ mark ∈ queue.localStops, mark.2 ∈ world.issued
  handed : ∀ reservation ∈ world.reservations, reservation.queue < world.opened ∧
    (reservation.stopGeneration = Guid.empty ∨ reservation.stopGeneration ∈ world.issued)
  asked : ∀ queue ∈ world.queue, ∀ call ∈ queue.calls, ∀ reservation, call.request = .start reservation →
    reservation.queue = queue.identity

theorem generation_known {issued : List Guid} (known : ∀ mark ∈ schedule.localStops, mark.2 ∈ issued) (jobId : Guid) :
    generation schedule jobId = Guid.empty ∨ generation schedule jobId ∈ issued := by
  unfold generation
  cases found : schedule.localStops.lookup jobId with
  | none => exact .inl rfl
  | some mark =>
    obtain ⟨_,_,split,_⟩ := lookup_eq_some_iff.mp found
    exact .inr (known (jobId,mark) (by rw [split]; simp))

def Marks (event : Event) (queue : Queue) (schedule : Schedule) : Prop :=
  schedule.identity = queue.identity ∧ (schedule.localStops = queue.localStops ∨
    ∃ jobId, ∃ fresh ∈ event.fresh, schedule.localStops = (jobId,fresh) :: queue.localStops)

theorem turn_marks (turn : Turn platform queue event schedule) : Marks event queue schedule := by
  cases turn with
  | mark => exact ⟨rfl,.inr ⟨_,_,rfl,rfl⟩⟩
  | _ => exact ⟨rfl,.inl rfl⟩

theorem edit_marks (edit : Edit queue event schedule) : Marks event queue schedule := by
  cases edit with
  | stop => exact ⟨rfl,.inr ⟨_,_,rfl,rfl⟩⟩
  | _ => exact ⟨rfl,.inl rfl⟩

inductive Continues (platform : Platform) (world : World) (event : Event) (next : Queue) (opened : Nat) : Prop where
  | fresh (identity : next.identity = world.opened) (count : opened = world.opened + 1) (unmarked : next.localStops = [])
      (idle : next.calls = [])
  | same (queue : Queue) (before : world.queue = some queue) (marks : Marks event queue next.toSchedule)
      (calls : ∀ call ∈ next.calls, CallFrom platform queue call)

theorem step_continues (platform : Platform) (world : World) (event : Event) (held : (advance platform world event).queue = some next) :
    Continues platform world event next (advance platform world event).opened := by
  cases advance_effect platform world event with
  | closed gone => rw [gone] at held; cases held
  | opened _ _ _ _ queue _ _ count =>
    rw [queue] at held
    cases held
    exact .fresh rfl count rfl rfl
  | reserved _ before _ _ now kept =>
    rw [now] at held
    cases held
    exact .same _ before ⟨rfl,.inl rfl⟩ fun call mem => .kept call mem
  | turned queue _ before now turn calls =>
    rw [now] at held
    cases held
    exact .same queue before (turn_marks turn) calls
  | saved queue _ before now _ _ edit calls =>
    rw [now] at held
    cases held
    exact .same queue before (edit_marks edit) calls

theorem step_opened (platform : Platform) (world : World) (event : Event) : world.opened ≤ (advance platform world event).opened := by
  cases advance_effect platform world event with
  | closed _ _ _ count => exact Nat.le_of_eq count.symm
  | opened _ _ _ _ _ _ _ count => rw [count]; exact Nat.le_succ _
  | reserved queue before asked handed now kept file count | turned queue later before now turn calls kept file count handed
  | saved _ _ _ _ _ _ _ _ _ _ count => exact Nat.le_of_eq count.symm

theorem step_handed (platform : Platform) (world : World) (event : Event) :
    ∀ reservation ∈ (advance platform world event).reservations, reservation ∈ world.reservations ∨
      ∃ queue ∈ world.queue, prepareStart queue reservation.jobId = some reservation := by
  intro reservation mem
  have old (handed : (advance platform world event).reservations = world.reservations) : reservation ∈ world.reservations :=
    handed ▸ mem
  cases advance_effect platform world event with
  | closed _ _ _ _ handed => exact .inl (old handed)
  | opened owner values read fitting queue saved file count handed | turned queue later before now turn calls kept file count handed
  | saved _ _ _ _ _ _ _ _ _ _ _ handed => exact .inl (old handed)
  | @reserved jobId queue before asked handed now kept file count =>
    rw [handed] at mem
    rcases mem_append.mp mem with earlier | new
    · exact .inl earlier
    have prepared : prepareStart queue jobId = some reservation := Option.mem_toList.mp new
    have about : reservation.jobId = jobId := by
      unfold prepareStart at prepared
      split at prepared
      · cases prepared
      cases prepared; rfl
    exact .inr ⟨queue,before,about ▸ prepared⟩

theorem prepareStart_some (prepared : prepareStart queue jobId = some reservation) :
    reservation = ⟨queue.identity,jobId,generation queue.toSchedule jobId⟩ := by
  unfold prepareStart at prepared
  split at prepared
  · cases prepared
  exact (Option.some.inj prepared).symm

theorem initial_traceable : Traceable World.initial := by
  have unreserved : ∀ reservation ∈ World.initial.reservations, False := fun _ => not_mem_nil
  exact ⟨fun queue held => (initial_closed queue held).elim,fun queue held => (initial_closed queue held).elim,
    fun reservation mem => (unreserved reservation mem).elim,fun queue held => (initial_closed queue held).elim⟩

theorem step_traceable (traceable : Traceable world) (step : Step platform world event after) : Traceable after := by
  obtain ⟨rfl,_,_⟩ := step
  have noted := advance_issued platform world event
  have more := step_opened platform world event
  have grown : world.issued ⊆ (advance platform world event).issued := by
    exact subset_append_right _ _
  refine ⟨?_,?_,?_,?_⟩
  · intro _ held
    cases step_continues platform world event held with
    | fresh identity count => rw [identity,count]; exact Nat.lt_succ_self _
    | same queue before marks => rw [marks.1]; exact Nat.lt_of_lt_of_le (traceable.identity queue before) more
  · intro _ held mark mem
    cases step_continues platform world event held with
    | fresh _ _ unmarked => rw [unmarked] at mem; cases mem
    | same queue before marks =>
      rcases marks.2 with kept | ⟨jobId,fresh,drawn,added⟩
      · exact grown (traceable.marks queue before mark (kept ▸ mem))
      rw [added] at mem
      rcases mem_cons.mp mem with rfl | old
      · rw [noted]
        exact mem_append_left _ (Option.mem_toList.mpr drawn)
      exact grown (traceable.marks queue before mark old)
  · intro reservation mem
    rcases step_handed platform world event reservation mem with old | ⟨queue,before,prepared⟩
    · obtain ⟨among,known⟩ := traceable.handed reservation old
      exact ⟨Nat.lt_of_lt_of_le among more,known.imp_right fun there => grown there⟩
    rw [prepareStart_some prepared]
    refine ⟨Nat.lt_of_lt_of_le (traceable.identity queue before) more,?_⟩
    exact (generation_known (traceable.marks queue before) _).imp_right fun there => grown there
  intro _ held call mem reservation asked
  cases step_continues platform world event held with
  | fresh _ _ _ idle => rw [idle] at mem; cases mem
  | same queue before marks calls =>
    rw [marks.1]
    cases calls call mem with
    | kept _ there => exact traceable.asked queue before call there reservation asked
    | moved old there => exact traceable.asked queue before old there reservation asked
    | arrived _ request own =>
      subst asked
      exact own

structure Superseded (reservation : StartReservation) (world : World) : Prop where
  earlier : reservation.queue < world.opened
  known : reservation.stopGeneration = Guid.empty ∨ reservation.stopGeneration ∈ world.issued
  newer : ∀ queue ∈ world.queue, queue.identity = reservation.queue →
    generation queue.toSchedule reservation.jobId ≠ reservation.stopGeneration

theorem generation_marked (added : schedule.localStops = (jobId,fresh) :: queue.localStops) (asked : Guid) :
    generation schedule asked = if asked = jobId then fresh else generation queue.toSchedule asked := by
  unfold generation
  rw [added,lookup_cons]
  by_cases same : asked = jobId
  · simp [same]
  simp [same,beq_eq_false_iff_ne.mpr same]

theorem drawn_differs {generation : Guid} (admissible : Admissible world event) (drawn : fresh ∈ event.fresh)
    (known : generation = Guid.empty ∨ generation ∈ world.issued) : fresh ≠ generation := by
  obtain ⟨nonempty,unused⟩ := admissible.1 fresh drawn
  rcases known with rfl | there
  · exact nonempty
  intro same
  exact unused (same ▸ there)

theorem step_superseded (superseded : Superseded reservation world) (step : Step platform world event after) : Superseded reservation after := by
  obtain ⟨rfl,admissible⟩ := step
  have more := step_opened platform world event
  refine ⟨Nat.lt_of_lt_of_le superseded.earlier more,?_,?_⟩
  · rw [advance_issued]
    exact superseded.known.imp_right fun there => mem_append_right _ there
  intro next held same
  cases step_continues platform world event held with
  | fresh identity =>
    exact absurd superseded.earlier (by rw [←same,identity]; exact Nat.lt_irrefl _)
  | same queue before marks =>
    have older := superseded.newer queue before (marks.1 ▸ same)
    rcases marks.2 with kept | ⟨jobId,fresh,drawn,added⟩
    · unfold generation at older ⊢
      rw [kept]
      exact older
    rw [generation_marked added]
    split
    · exact drawn_differs admissible drawn superseded.known
    exact older

theorem stopAsync_marks (changed : (stopAsync world queue jobId requested abandoned fresh disk).queue ≠ world.queue) :
    ∃ next, (stopAsync world queue jobId requested abandoned fresh disk).queue = some next ∧
      next.identity = queue.identity ∧ next.localStops = (jobId,fresh) :: queue.localStops := by
  generalize ran : stopAsync world queue jobId requested abandoned fresh disk = after at changed
  unfold stopAsync at ran
  split at ran
  · exact absurd (by rw [←ran]) changed
  split at ran
  · subst ran; exact ⟨_,rfl,rfl,rfl⟩
  split at ran
  · exact absurd (by rw [←ran]) changed
  split at ran
  · exact absurd (by rw [←ran]) changed
  split at ran
  · exact absurd (by rw [←ran]) changed
  rcases commit_getD ran with ⟨_,_,rfl⟩ | rfl
  · exact ⟨_,rfl,rfl,rfl⟩
  exact ⟨_,rfl,rfl,rfl⟩

theorem stop_supersedes (traceable : Traceable world) (there : reservation ∈ world.reservations)
    (step : Step platform world (.stopAsync reservation.jobId requested abandoned fresh disk) after)
    (changed : after.queue ≠ world.queue) : Superseded reservation after := by
  obtain ⟨rfl,admissible⟩ := step
  obtain ⟨among,known⟩ := traceable.handed reservation there
  have more := step_opened platform world (.stopAsync reservation.jobId requested abandoned fresh disk)
  refine ⟨Nat.lt_of_lt_of_le among more,?_,?_⟩
  · rw [advance_issued]
    exact known.imp_right fun inside => mem_append_right _ inside
  intro _ held _
  cases before : world.queue with
  | none =>
    have gone : (advance platform world (.stopAsync reservation.jobId requested abandoned fresh disk)).queue = none := by
      simp only [advance,before]
    rw [gone] at held
    cases held
  | some queue =>
    have ran : (advance platform world (.stopAsync reservation.jobId requested abandoned fresh disk)).queue =
        (stopAsync world queue reservation.jobId requested abandoned fresh disk).queue := by
      simp only [advance,before,advanceQueue]
    rw [ran] at held changed
    obtain ⟨_,now,_,added⟩ := stopAsync_marks changed
    rw [now] at held
    cases held
    rw [generation_marked added,if_pos rfl]
    exact drawn_differs admissible rfl known

theorem step_reservations (platform : Platform) (world : World) (event : Event) : world.reservations ⊆ (advance platform world event).reservations := by
  cases advance_effect platform world event with
  | closed _ _ _ _ handed | opened _ _ _ _ _ _ _ _ handed | turned _ _ _ _ _ _ _ _ _ handed | saved _ _ _ _ _ _ _ _ _ _ _ handed =>
    rw [handed]; exact Subset.refl _
  | reserved _ _ _ handed => rw [handed]; exact subset_append_left _ _

theorem handsOut_reserved (hands : HandsOut reservation ⟨world,event,advance platform world event⟩) :
    reservation ∈ (advance platform world event).reservations := by
  obtain ⟨asked,queue,held,prepared⟩ := hands
  change world.queue = some queue at held
  subst asked
  have handed : (advance platform world (.prepareStart reservation.jobId)).reservations =
      world.reservations++(prepareStart queue reservation.jobId).toList := by
    simp only [advance,held,advanceQueue]
  rw [handed]
  exact mem_append_right _ (Option.mem_toList.mpr prepared)

theorem beginAsync_refused (newer : generation queue.toSchedule reservation.jobId ≠ reservation.stopGeneration) :
    beginAsync world queue reservation disk = world.put queue := by
  unfold beginAsync
  split
  · rfl
  split
  · rfl
  rfl

theorem start_refused (traceable : Traceable world) (superseded : Superseded reservation world)
    (starts : Starts reservation ⟨world,event,advance platform world event⟩) :
    ¬MovesToRunning reservation.jobId ⟨world,event,advance platform world event⟩ := by
  obtain ⟨queue,held,call,fresh,disk,acts,found,asked⟩ := starts
  change world.queue = some queue at held
  subst acts
  have own := traceable.asked queue held call (find_some found).1 reservation asked
  have newer := superseded.newer queue held own.symm
  have refused : (advance platform world (.act call.id fresh disk)).queue = some queue ∨
      (advance platform world (.act call.id fresh disk)).queue = some (release queue call.id) := by
    simp only [advance,held,advanceQueue,withCall,found,Option.elim_some,act,asked]
    split
    · rename_i same _; cases same
    · rename_i same _
      cases same
      rw [beginAsync_refused (by exact newer)]
      exact .inr rfl
    exact .inl held
  intro moved
  obtain ⟨_,there,_,after,_,mem,_,_,absent⟩ := moved
  rw [held] at there
  cases there
  apply absent
  rcases refused with same | same
  · rw [same] at after; cases after; exact mem
  rw [same] at after; cases after; exact mem

structure Traced (history : List (Transition World Event)) (world : World) : Prop where
  valid : Valid world
  traceable : Traceable world
  absorbed : ∀ taken ∈ history, ∀ earlier ∈ taken.before.queue, earlier.storageFault = none →
    ∀ job ∈ earlier.jobs, job.state.isOver = true → job ∈ savedJobs world
  reserved : ∀ reservation, ∀ handed ∈ history, HandsOut reservation handed → reservation ∈ world.reservations
  superseded : ∀ reservation handed stopped, [handed,stopped].Sublist history → HandsOut reservation handed →
    Stops reservation.jobId stopped → Superseded reservation world
  refused : ∀ reservation handed stopped started, [handed,stopped,started].Sublist history →
    HandsOut reservation handed → Stops reservation.jobId stopped → Starts reservation started →
    ¬MovesToRunning reservation.jobId started

theorem step_traced (traced : Traced history world) (step : Recorded (Step platform) world taken after) : Traced (history++[taken]) after := by
  obtain ⟨before,event,later⟩ := taken
  obtain ⟨rfl,rfl,stepped⟩ := step
  change Step platform before event later at stepped
  have ran := stepped.1
  subst ran
  refine ⟨step_valid traced.valid stepped,step_traceable traced.traceable stepped,?_,?_,?_,?_⟩
  · intro taken mem earlier held healthy job there shut
    rcases mem_snoc.mp mem with old | rfl
    · exact step_absorbs traced.valid stepped (traced.absorbed taken old earlier held healthy job there shut) shut
    refine step_absorbs traced.valid stepped ?_ shut
    rw [traced.valid.saved_jobs held healthy]
    exact there
  · intro reservation handed mem hands
    rcases mem_snoc.mp mem with old | rfl
    · exact step_reservations platform before event (traced.reserved reservation handed old hands)
    exact handsOut_reserved hands
  · intro reservation handed stopped ordered hands stops
    rcases (sublist_last (show ([handed]++[stopped]).Sublist _ from ordered)) with old | ⟨first,last⟩
    · exact step_superseded (traced.superseded reservation handed stopped old hands stops) stepped
    subst last
    obtain ⟨⟨_,_,_,_,asked⟩,changed⟩ := stops
    subst asked
    have there := traced.reserved reservation handed (singleton_sublist.mp first) hands
    exact stop_supersedes traced.traceable there stepped changed
  intro reservation handed stopped started ordered hands stops starts
  rcases (sublist_last (show ([handed,stopped]++[started]).Sublist _ from ordered)) with old | ⟨first,last⟩
  · exact traced.refused reservation handed stopped started old hands stops starts
  subst last
  exact start_refused traced.traceable (traced.superseded reservation handed stopped first hands stops) starts
end

-- One worker at most is active, a Running job is the active one, a resource is open at most once for a destination; a
-- job that is over stays so; no reservation outlives a later stop.
theorem transfer_scheduling_safe (platform : Platform) (path : Runs (Recorded (Step platform)) World.initial history world) : SchedulingSafe history world := by
  have traced : Traced history world := by
    refine path.preserves_history Traced (fun _ _ _ _ => step_traced) ?_
    have nothing : ∀ taken ∈ ([] : List (Transition World Event)), False := fun _ => not_mem_nil
    refine ⟨initial_valid,initial_traceable,fun taken member => (nothing taken member).elim, fun _ handed member => (nothing handed member).elim,?_,?_⟩
    · intro _ handed _ ordered
      exact (nothing handed (ordered.subset mem_cons_self)).elim
    intro _ handed _ _ ordered
    exact (nothing handed (ordered.subset mem_cons_self)).elim
  refine ⟨fun queue held healthy => scheduled_of_valid traced.valid held healthy,?_,traced.refused⟩
  intro taken member earlier held healthy _ there still job inside shut
  rw [←traced.valid.saved_jobs there still]
  exact traced.absorbed taken member earlier held healthy job inside shut

def desktop : Platform where
  isPathFullyQualified path := "C:\\".toList.isPrefixOf path
  getFullPath path := path
  trimEndingDirectorySeparator path := path
  combine directory name := directory++ '\\' :: name
  entityTag text := some ⟨text,false,text⟩
  controlOrFormat _ := false
  toUpperInvariant text := text.map Char.toUpper

def numbered (number : Nat) : Guid :=
  ⟨replicate 31 ⟨0,by decide⟩++[⟨number % 16,Nat.mod_lt number (by decide)⟩],rfl⟩

def portal : Reading := ⟨['p'],⟨true,"https".toList,[],[],['/'],[],['h']⟩⟩
def person : QueuedDownloadSession := ⟨"odqp1_".toList++replicate 64 'a',100000000⟩
def signedIn : SessionAnswers := ⟨portal,.ok (some person),portal,0⟩
def openDesk : Event := .openAsync ⟨portal,.ok (some person),0,portal,true,true⟩

def offered (version : Text) : ResolvedQueuedDownload :=
  let logical := "oef1_".toList++replicate 64 'b'
  ⟨person.principalId,logical,version,⟨logical++ ':' :: version,portal.origin,['m'],7,['"','"'],replicate 64 'c'⟩⟩

def queueOne (version : Text) : List Event :=
  [.enqueueAsync 1 "odqr1_x".toList "C:\\d".toList ⟨true,true⟩,.acquire 1,.verify 1 signedIn false,
    .resolve 1 (.ok (offered version)),.verify 1 signedIn false,.act 1 (numbered 1) true]

def pausedStart : List Event :=
  openDesk :: queueOne ['v']++[.prepareStart (numbered 1),.startAsync 2 ⟨0,numbered 1,Guid.empty⟩,.acquire 2,
    .stopAsync (numbered 1) .pause false (numbered 2) true,.verify 2 signedIn false,.act 2 (numbered 3) true]

theorem transfer_scheduling_safe_example :
    SchedulingSafe (trace (advance desktop) World.initial pausedStart) (pausedStart.foldl (advance desktop) World.initial) :=
  transfer_scheduling_safe desktop (Runs.recorded_admitted (advance desktop) World.initial pausedStart (by decide +kernel))
end LedgeTopOps.TransferSchedule
