import LedgeTopOps.TransferSchedule

namespace LedgeTopOps.TransferCancellation
open List JsonTree TransferRecord KeyedRows StepRuns TransferQueue TransferEffects TransferSchedule Bool
open Option (some_inj some_get)

def attempt (platform : Platform) (owner : Owner) (job : QueuedTransfer) (found : RunAnswers) : Except Raised Outcome :=
  match resolveJob platform owner job found with
  | .error raised => .error raised
  | .ok (.inl outcome) => .ok outcome
  | .ok (.inr _) => transferJob platform owner job found

-- An attempt that ends the job by itself, or that is cut off while its token is
-- cancelled. Only the handler of the latter reads the stop state.
def heeds (attempted : Except Raised Outcome) (cancelled : Bool) : Bool :=
  match attempted with
  | .ok outcome => outcome.state.isOver
  | .error .operationCanceled => cancelled
  | .error _ => false

def returnsAtOnce (world : World) (queue : Queue) (jobId : Guid) (requested : Restriction) (abandoned : Bool)
    (fresh : Guid) (disk : Bool) : Bool :=
  !queue.disposed && decide (queue.activeJob ≠ some jobId) && !abandoned && queue.storageFault.isNone &&
    match find QueuedTransfer.jobId queue.jobs jobId with
    | none => false
    | some job => job.state.isOver ||
      (commit world { queue with localStops := (jobId,fresh) :: queue.localStops }
        (amend QueuedTransfer.jobId queue.jobs jobId (restricted requested)) disk).isSome

structure Same (queue : Queue) (world : World) (next : Queue) : Prop where
  held : world.queue = some next
  identity : next.identity = queue.identity
  healthy : next.storageFault = none

-- CancelAsync from its locked section to its return: at once, or with the end
-- of the task that was active then.
inductive Returns (queue : Queue) (jobId : Guid) (stop : Transition World Event) : List (Transition World Event) → Prop where
  | atOnce (held : stop.before.queue = some queue) (asked : stop.event = .stopAsync jobId .cancel abandoned fresh disk)
      (settled : returnsAtOnce stop.before queue jobId .cancel abandoned fresh disk = true) : Returns queue jobId stop []
  | awaited (held : stop.before.queue = some queue) (asked : stop.event = .stopAsync jobId .cancel abandoned fresh disk)
      (open_ : queue.disposed = false) (healthy : queue.storageFault = none) (active : queue.activeJob = some jobId)
      (task : queue.activeTask = some pending)
      (waits : ∀ taken ∈ waited, ∃ next, Same queue taken.after next ∧ (find Worker.id next.workers pending).isSome = true)
      (ends : ∃ next, Same queue last.after next ∧ find Worker.id next.workers pending = none) :
      Returns queue jobId stop (waited++[last])

def Sound (world : World) : Prop := ∀ queue ∈ world.queue, queue.storageFault = none

structure Final (platform : Platform) (jobId : Guid) (world : World) : Prop where
  ended : ∀ rest after, Runs (Recorded (Step platform)) world rest after → (∀ taken ∈ rest, Sound taken.after) →
    ∀ queue ∈ after.queue, ∃ job ∈ queue.jobs, job.jobId = jobId ∧ job.state.isOver = true
  still : ∀ rest after, Runs (Recorded (Step platform)) world rest after → (∀ taken ∈ rest, Sound taken.after) →
    ∀ taken ∈ rest, ¬MovesToRunning jobId taken

def Attempts (platform : Platform) (worker : Worker) (taken : Transition World Event) (heeded : Bool) : Prop :=
  ∃ queue ∈ taken.before.queue, ∃ found now, taken.event = .runAsync worker.id found now ∧
    find Worker.id queue.workers worker.id = some worker ∧
    heeds (attempt platform queue.owner worker.job found) (queue.cancelled.contains worker.id) = heeded

inductive Heeded (platform : Platform) (queue : Queue) (worker : Worker) (later : List (Transition World Event)) : Prop where
  | running (stage : worker.stage = .body) (member : taken ∈ later) (attempted : Attempts platform worker taken true)
  | stopping (stage : worker.stage = .stopping)
  | finishing (stage : worker.stage = .finishing outcome) (ended : outcome.state.isOver = true)
  | clearing (stage : worker.stage = .clearing) (member : job ∈ queue.jobs) (about : job.jobId = worker.job.jobId)
      (ended : job.state.isOver = true)

section
theorem handle_heeds (raised : Raised) (expiry : Option Int) (now : Int) (cancelled : Bool) :
    (handle raised expiry now cancelled = .stopping ∧ heeds (.error raised) cancelled) ∨
      ∃ outcome, handle raised expiry now cancelled = .finishing outcome ∧ outcome.state.isOver = heeds (.error raised) cancelled := by
  cases raised with
  | operationCanceled =>
    cases cancelled with
    | true => exact .inl ⟨rfl,rfl⟩
    | false =>
      right
      unfold handle
      dsimp only
      split
      · rename_i absurdity; cases absurdity
      split <;> exact ⟨_,rfl,rfl⟩
  | _ => exact .inr ⟨_,rfl,rfl⟩

theorem runAsync_heeds (platform : Platform) (owner : Owner) (job : QueuedTransfer) (found : RunAnswers) (now : Int) (cancelled : Bool) :
    (runAsync platform owner job found now cancelled = .stopping ∧ heeds (attempt platform owner job found) cancelled) ∨
      ∃ outcome, runAsync platform owner job found now cancelled = .finishing outcome ∧
        outcome.state.isOver = heeds (attempt platform owner job found) cancelled := by
  unfold runAsync attempt
  cases resolveJob platform owner job found with
  | error raised => exact handle_heeds raised none now cancelled
  | ok resolved => cases resolved with
    | inl outcome => exact .inr ⟨outcome,rfl,rfl⟩
    | inr session => cases transferJob platform owner job found with
      | error raised => exact handle_heeds raised (some session.expiresAt) now cancelled
      | ok outcome => exact .inr ⟨outcome,rfl,rfl⟩
end

structure Attached (schedule : Schedule) : Prop where
  task : ∀ worker ∈ schedule.workers, schedule.activeTask = some worker.id
  listed : ∀ worker ∈ schedule.workers, ∃ job ∈ schedule.jobs, job.jobId = worker.job.jobId

section

theorem staged_worker (mem : worker ∈ amend Worker.id workers number fun row => { row with stage }) :
    ∃ old ∈ workers, old.id = worker.id ∧ old.job = worker.job := by
  rcases mem_amend.mp mem with ⟨there,_⟩ | ⟨old,there,_,rfl⟩
  · exact ⟨worker,there,rfl,rfl⟩
  exact ⟨old,there,rfl,rfl⟩

theorem amended_job {change : QueuedTransfer → QueuedTransfer} (same : ∀ job, (change job).jobId = job.jobId)
    (listed : ∃ job ∈ jobs, job.jobId = wanted) : ∃ job ∈ amend QueuedTransfer.jobId jobs jobId change, job.jobId = wanted := by
  obtain ⟨job,there,rfl⟩ := listed
  by_cases here : job.jobId = jobId
  · exact ⟨_,mem_amend.mpr (.inr ⟨job,there,here,rfl⟩),same job⟩
  exact ⟨job,mem_amend.mpr (.inl ⟨there,here⟩),rfl⟩

theorem turn_attached (turn : Turn platform queue event schedule) (attached : Attached queue.toSchedule)
    (healthy : schedule.storageFault = none) : Attached schedule := by
  cases turn with
  | same => exact attached
  | mark => exact ⟨attached.task,attached.listed⟩
  | stage =>
    constructor <;> intro other mem <;> obtain ⟨old,there,number,job⟩ := staged_worker mem
    · rw [←number]
      exact attached.task old there
    rw [←job]
    exact attached.listed old there
  | fault => cases healthy
  | clear =>
    exact ⟨fun other mem => attached.task other (mem_drop.mp mem).1, fun other mem => attached.listed other (mem_drop.mp mem).1⟩

theorem edit_attached (edit : Edit queue event schedule) (coherent : Coherent queue.toSchedule) (attached : Attached queue.toSchedule) : Attached schedule := by
  cases edit with
  | enqueue =>
    refine ⟨attached.task,fun worker there => ?_⟩
    obtain ⟨job,listed,about⟩ := attached.listed worker there
    exact ⟨job,mem_append_left _ listed,about⟩
  | @start _ job _ _ call mem asked checked found current idle ready =>
    have alone : ∀ worker ∈ queue.workers++[⟨queue.started,job,.body⟩], worker = ⟨queue.started,job,.body⟩ := by
      rcases coherent.lone with ⟨empty,_⟩ | ⟨_,_,active⟩
      · rw [empty]
        exact fun worker there => mem_singleton.mp there
      rw [idle] at active
      cases active
    constructor <;> intro worker there <;> cases alone worker there
    · rfl
    exact amended_job (fun _ => rfl) ⟨job,(find_some found).1,rfl⟩
  | stop =>
    exact ⟨attached.task,fun worker there => amended_job (fun _ => rfl) (attached.listed worker there)⟩
  | finish =>
    constructor <;> intro other mem <;> obtain ⟨old,there,number,job⟩ := staged_worker mem
    · rw [←number]
      exact attached.task old there
    rw [←job]
    exact amended_job (fun _ => rfl) (attached.listed old there)
end

structure Grounded (world : World) : Prop where
  valid : Valid world
  traceable : Traceable world
  attached : ∀ queue ∈ world.queue, queue.storageFault = none → Attached queue.toSchedule

section
variable {platform : Platform} {after : World} {queue next : Queue}

theorem initial_grounded : Grounded World.initial :=
  ⟨initial_valid,initial_traceable,fun queue held => (initial_closed queue held).elim⟩

theorem step_grounded (grounded : Grounded world) (step : Step platform world event after) : Grounded after := by
  refine ⟨step_valid grounded.valid step,step_traceable grounded.traceable step,?_⟩
  obtain ⟨rfl,_⟩ := step
  intro _ held healthy
  cases advance_effect platform world event with
  | closed gone => cases gone.symm.trans held
  | opened _ _ _ _ queue =>
    rw [queue] at held
    cases held
    exact ⟨fun worker there => (not_mem_nil there).elim,fun worker there => (not_mem_nil there).elim⟩
  | reserved _ before _ _ now =>
    rw [now] at held
    cases held
    exact grounded.attached _ before healthy
  | turned queue _ before now turn =>
    rw [now] at held
    cases held
    exact turn_attached turn (grounded.attached queue before (turn_healthy turn healthy)) healthy
  | saved queue _ before now sound _ edit =>
    rw [now] at held
    cases held
    exact edit_attached edit (grounded.valid.live queue before sound).1 (grounded.attached queue before sound)

theorem reached_grounded (path : Runs (Recorded (Step platform)) World.initial history world) : Grounded world :=
  path.preserves Grounded (fun _ _ _ grounded taken => by
    obtain ⟨rfl,rfl,step⟩ := taken
    exact step_grounded grounded step) initial_grounded

inductive Moves (platform : Platform) (queue : Queue) (event : Event) (schedule : Schedule) : Prop where
  | turned (turn : Turn platform queue event schedule)
  | saved (edit : Edit queue event schedule)

theorem step_moves (grounded : Grounded world) (held : world.queue = some queue)
    (same : Same queue (advance platform world event) next) : Moves platform queue event next.toSchedule := by
  have now := same.held
  cases advance_effect platform world event with
  | closed gone => cases gone.symm.trans now
  | opened _ _ _ _ opened =>
    rw [opened] at now
    cases now
    exact absurd (grounded.traceable.identity queue held) (by rw [←same.identity]; exact Nat.lt_irrefl _)
  | reserved _ before _ _ left =>
    rw [held] at before
    cases before
    rw [left] at now
    cases now
    exact .turned .same
  | turned _ _ before left turn =>
    rw [held] at before
    cases before
    rw [left] at now
    cases now
    exact .turned turn
  | saved _ _ before left _ _ edit _ saved =>
    rw [held] at before
    cases before
    rw [left] at now
    cases now
    exact .saved edit

theorem Moves.healthy (moves : Moves platform queue event schedule) (healthy : schedule.storageFault = none) : queue.storageFault = none := by
  cases moves with
  | turned turn => exact turn_healthy turn healthy
  | saved edit => cases edit <;> exact healthy
end

-- Where a worker that is to be stopped stands. The flag is what its attempt has
-- come to, once it has come to something.
inductive Stands (worker : Worker) (schedule : Schedule) : Option Bool → Prop where
  | running (found : find Worker.id schedule.workers worker.id = some worker) (stage : worker.stage = .body)
      (stops : schedule.stopState = .cancelled) : Stands worker schedule none
  | stopping (found : find Worker.id schedule.workers worker.id = some { worker with stage := .stopping })
      (stops : schedule.stopState = .cancelled) : Stands worker schedule (some true)
  | finishing (outcome : Outcome)
      (found : find Worker.id schedule.workers worker.id = some { worker with stage := .finishing outcome }) :
      Stands worker schedule (some outcome.state.isOver)
  | clearing (job : QueuedTransfer) (found : find Worker.id schedule.workers worker.id = some { worker with stage := .clearing })
      (member : job ∈ schedule.jobs) (about : job.jobId = worker.job.jobId) : Stands worker schedule (some job.state.isOver)

section
variable {worker : Worker} {world : World}

theorem find_staged (found : find Worker.id workers worker.id = some other) (stage : Stage) :
    find Worker.id (amend Worker.id workers worker.id fun row => { row with stage }) worker.id = some { other with stage } := by
  have same : ∀ row : Worker, ({ row with stage } : Worker).id = row.id := fun _ => rfl
  rw [find_amend same,found,Option.map_some,if_pos (find_some found).2]

theorem staged_found (coherent : Coherent schedule) (found : find Worker.id schedule.workers number = some worker)
    (there : find Worker.id schedule.workers other.id = some other) : other = worker := by
  obtain ⟨one,_⟩ := coherent.only there
  have mem := (find_some found).1
  rw [one] at mem
  exact (mem_singleton.mp mem).symm

theorem stopAsync_cancelled {next} (held : world.queue = some queue) (stops : queue.stopState = .cancelled)
    (now : (stopAsync world queue jobId requested abandoned fresh disk).queue = some next) : next.stopState = .cancelled := by
  generalize ran : stopAsync world queue jobId requested abandoned fresh disk = after at now
  have unmoved : world.queue = some next → next.stopState = .cancelled := by
    intro same
    rw [held] at same
    cases same
    exact stops
  unfold stopAsync at ran
  split at ran
  · exact unmoved (ran ▸ now)
  split at ran
  · subst ran
    cases now
    change (if requested = .cancel ∨ queue.stopState ≠ .cancelled then requested.state else queue.stopState) = .cancelled
    cases requested with
    | cancel => exact if_pos (.inl rfl)
    | pause => rw [if_neg (by simp [stops]),stops]
  split at ran
  · exact unmoved (ran ▸ now)
  split at ran
  · exact unmoved (ran ▸ now)
  split at ran
  · exact unmoved (ran ▸ now)
  · rcases commit_getD ran with ⟨_,_,rfl⟩ | rfl
    · cases now; exact stops
    · cases now; exact stops

theorem moves_cancelled {next} (held : world.queue = some queue) (moves : Moves platform queue event next.toSchedule)
    (now : (advance platform world event).queue = some next) (active : queue.activeJob ≠ none)
    (stops : queue.stopState = .cancelled) : next.stopState = .cancelled := by
  have schedule : next.stopState = next.toSchedule.stopState := rfl
  cases moves with
  | turned turn =>
    cases event with
    | stopAsync jobId requested abandoned fresh disk =>
      have ran : (advance platform world (.stopAsync jobId requested abandoned fresh disk)).queue =
          (stopAsync world queue jobId requested abandoned fresh disk).queue := by
        simp only [advance,held,advanceQueue]
      exact stopAsync_cancelled held stops (ran.symm.trans now)
    | _ =>
      rw [schedule,←stops]
      generalize next.toSchedule = later at turn
      cases turn <;> rfl
  | saved edit =>
    rw [schedule,←stops]
    generalize next.toSchedule = later at edit
    cases edit with
    | start _ _ _ _ _ _ idle => exact absurd idle active
    | _ => rfl

def Leaving (kept : List Worker → Prop) (world : World) : Prop := ∀ next ∈ world.queue, kept next.workers

section
variable {kept : List Worker → Prop}
include kept

theorem Leaving.put {next} (holds : kept next.workers) : Leaving kept (world.put next) := by
  intro _ there
  cases there
  exact holds

theorem Leaving.committed (holds : kept queue.workers) (otherwise : Leaving kept refused) : Leaving kept ((commit world queue values disk).getD refused) := by
  rcases commit_getD rfl with ⟨_,_,same⟩ | same
  · rw [same]
    intro _ there
    cases there
    exact holds
  rw [same]
  exact otherwise

theorem Leaving.called (unchanged : Leaving kept world) (used : ∀ call, Leaving kept (use call)) : Leaving kept (withCall queue number use world) := by
  unfold withCall
  cases find Call.id queue.calls number with
  | none => exact unchanged
  | some call => exact used call

theorem Leaving.quiet {next} (holds : kept queue.workers) (quiet : Quiet platform queue next) : Leaving kept (world.put next) := by
  have workers : next.workers = queue.workers := congrArg Schedule.workers quiet.schedule
  exact .put (workers ▸ holds)

section
variable (unchanged : Leaving kept world)
include unchanged

theorem openAsync_leaves (empty : kept []) (found : OpenAnswers) : Leaving kept (openAsync platform world found) := by
  unfold openAsync
  split
  · exact unchanged
  split
  · exact unchanged
  split
  · exact unchanged
  exact .committed empty unchanged

theorem act_leaves (holds : kept queue.workers) (busy : queue.activeJob ≠ none) (call : Call) : Leaving kept (act world queue call fresh disk) := by
  have released : Leaving kept (world.put (release queue call.id)) := .put holds
  unfold act
  dsimp only
  split
  · unfold enqueueAsync
    split
    · exact released
    exact .committed holds released
  · unfold beginAsync
    split
    · exact released
    split
    · exact released
    split
    · exact released
    split
    · exact released
    rename_i idle
    exact absurd (by simpa [release] using idle) (by simp [busy])
  exact unchanged

theorem stopAsync_leaves (holds : kept queue.workers) : Leaving kept (stopAsync world queue jobId requested abandoned fresh disk) := by
  unfold stopAsync
  split
  · exact unchanged
  split
  · exact .put holds
  split
  · exact unchanged
  split
  · exact unchanged
  split
  · exact unchanged
  exact .committed holds (.put holds)
end
end

theorem body_kept (coherent : Coherent queue.toSchedule) (held : world.queue = some queue)
    (found : find Worker.id queue.workers worker.id = some worker) (body : worker.stage = .body)
    (apart : ∀ answers now, event ≠ .runAsync worker.id answers now) :
    Leaving (fun workers => workers = queue.workers ∨ workers = []) (advance platform world event) := by
  have unchanged : Leaving (fun workers => workers = queue.workers ∨ workers = []) world := by
    intro _ there
    rw [held] at there
    cases there
    exact .inl rfl
  have busy : queue.activeJob ≠ none := by
    rw [(coherent.only found).2]
    exact Option.some_ne_none _
  have used {number : Nat} {use : Worker → World} (mine : number = worker.id → Leaving (fun workers => workers = queue.workers ∨ workers = []) (use worker)) :
      Leaving (fun workers => workers = queue.workers ∨ workers = []) (withWorker queue number use world) := by
    unfold withWorker
    cases there : find Worker.id queue.workers number with
    | none => exact unchanged
    | some =>
      have same := staged_found coherent there found
      subst same
      exact mine (find_some there).2.symm
  have ran : (advance platform world event).queue = (advanceQueue platform world queue event).queue := by
    simp only [advance,held]
  rw [Leaving,ran]
  change Leaving (fun workers => workers = queue.workers ∨ workers = []) (advanceQueue platform world queue event)
  unfold advanceQueue
  cases event with
  | openAsync answers => exact openAsync_leaves unchanged (.inr rfl) answers
  | crash =>
    intro _ there
    cases there
  | prepareStart => exact unchanged
  | enqueueAsync =>
    dsimp only
    split
    · exact unchanged
    split
    · exact unchanged
    exact .put (.inl rfl)
  | startAsync =>
    dsimp only
    split
    · exact unchanged
    exact .put (.inl rfl)
  | call _ request =>
    cases request with
    | enqueue | start => exact unchanged
    | _ => exact .put (.inl rfl)
  | abandon =>
    refine .called unchanged fun call => ?_
    split
    · exact .put (.inl rfl)
    exact unchanged
  | acquire => exact .called unchanged fun call => .quiet (.inl rfl) (show Quiet platform queue _ from .acquire)
  | verify _ answers abandoned => exact .called unchanged fun call => .quiet (.inl rfl) (.verify answers abandoned)
  | resolve _ answer => exact .called unchanged fun call => .quiet (.inl rfl) (show Quiet platform queue _ from .resolve answer)
  | act => exact .called unchanged fun call => act_leaves unchanged (.inl rfl) busy call
  | drained => exact .called unchanged fun call => .quiet (.inl rfl) (show Quiet platform queue _ from .drained)
  | stopAsync => exact stopAsync_leaves unchanged (.inl rfl)
  | cancel number => exact .quiet (.inl rfl) (show Quiet platform queue _ from .cancel number)
  | runAsync _ answers now => exact used fun same => absurd (congrArg (Event.runAsync · answers now) same) (apart answers now)
  | settle =>
    refine used fun _ => .put (.inl ?_)
    unfold settle
    rw [body]
    rfl
  | finish =>
    refine used fun _ => ?_
    unfold finish
    rw [body]
    exact unchanged
  | clear =>
    refine used fun _ => .put (.inl ?_)
    unfold clear
    rw [body]
    rfl

theorem Stands.found (stands : Stands worker schedule verdict) : ∃ stage, find Worker.id schedule.workers worker.id = some { worker with stage } ∧
      (verdict = none → stage = worker.stage ∧ worker.stage = .body) ∧ (verdict ≠ none → stage ≠ .body) := by
  cases stands with
  | running found body => exact ⟨worker.stage,found,fun _ => ⟨rfl,body⟩,fun some_ => absurd rfl some_⟩
  | stopping found | finishing _ found | clearing _ found => exact ⟨_,found,nofun,fun _ => nofun⟩

theorem Stands.active (stands : Stands worker schedule verdict) (coherent : Coherent schedule) : schedule.activeJob = some worker.job.jobId := by
  obtain ⟨stage,found,_⟩ := stands.found
  exact (coherent.only (show find Worker.id schedule.workers ({ worker with stage } : Worker).id = _ from found)).2

theorem turn_stands (turn : Turn platform queue event schedule) (coherent : Coherent queue.toSchedule)
    (stands : Stands worker queue.toSchedule (some fate)) (healthy : schedule.storageFault = none)
    (stops : queue.stopState = .cancelled → schedule.stopState = .cancelled)
    (waits : (find Worker.id schedule.workers worker.id).isSome) : Stands worker schedule (some fate) := by
  cases turn with
  | same => exact stands
  | mark =>
    cases stands with
    | stopping found cancelled => exact .stopping found (stops cancelled)
    | finishing outcome found => exact .finishing outcome found
    | clearing job found mem about => exact .clearing job found mem about
  | stage _ found leaves =>
    obtain ⟨_,there,_,past⟩ := stands.found
    have same := staged_found coherent there found
    subst same
    cases leaves with
    | ran body => exact absurd body (past nofun)
    | settled stopping =>
      have later := find_staged there (.finishing ⟨queue.stopState,none,none⟩)
      cases stands with
      | stopping _ cancelled =>
        rw [cancelled] at later
        rw [cancelled]
        exact .finishing ⟨.cancelled,none,none⟩ later
      | finishing _ again | clearing _ again => cases again.symm.trans there; cases stopping
  | fault => cases healthy
  | clear _ found stage =>
    obtain ⟨_,there,_⟩ := stands.found
    have same := staged_found coherent there found
    subst same
    have gone : find Worker.id (drop Worker.id queue.workers worker.id) worker.id = none :=
      find_none.mpr fun row mem => (mem_drop.mp mem).2
    rw [gone] at waits
    cases waits

theorem edit_stands (edit : Edit queue event schedule) (coherent : Coherent queue.toSchedule)
    (keyed : Keyed QueuedTransfer.jobId queue.jobs) (stands : Stands worker queue.toSchedule verdict) :
    ∃ later, Stands worker schedule later ∧ later = verdict := by
  have active := stands.active coherent
  cases edit with
  | enqueue _ mem =>
    refine ⟨verdict,?_,rfl⟩
    cases stands with
    | running found body stops => exact .running found body stops
    | stopping found stops => exact .stopping found stops
    | finishing outcome found => exact .finishing outcome found
    | clearing job found mem about => exact .clearing job found (mem_append_left _ mem) about
  | start _ _ _ _ _ _ idle =>
    rw [idle] at active
    cases active
  | stop found inactive =>
    refine ⟨verdict,?_,rfl⟩
    cases stands with
    | running found body stops => exact .running found body stops
    | stopping found stops => exact .stopping found stops
    | finishing outcome found => exact .finishing outcome found
    | clearing job found mem about =>
      exact .clearing job found (mem_amend.mpr (.inl ⟨mem,fun same => inactive (by rw [active,←about,same])⟩)) about
  | @finish result _ other found stage =>
    obtain ⟨before,there,_⟩ := stands.found
    have same := staged_found coherent there found
    subst same
    obtain ⟨job,target,_⟩ := coherent.runs keyed found (by rw [stage]; exact nofun)
    obtain ⟨mem,about⟩ := find_some target
    have later := find_staged there .clearing
    cases stands with
    | running again body =>
      have stays : worker.stage = before := congrArg Worker.stage (Option.some.inj (again.symm.trans there))
      cases body.symm.trans (stays.trans stage)
    | stopping again | clearing _ again => cases again.symm.trans there; cases stage
    | finishing _ again =>
      rw [again] at there
      cases there
      cases stage
      exact ⟨_,.clearing (finished result job) later (mem_amend.mpr (.inr ⟨job,mem,about,rfl⟩)) about,rfl⟩
end

section
variable {after : World} {queue next : Queue} {worker : Worker}
   {jobId : Guid}

theorem body_attempts (held : world.queue = some queue) (found : find Worker.id queue.workers worker.id = some worker) (body : worker.stage = .body)
    (stops : queue.stopState = .cancelled) (same : Same queue (advance platform world (.runAsync worker.id answers now)) next) :
    Stands worker next.toSchedule (some (heeds (attempt platform queue.owner worker.job answers) (queue.cancelled.contains worker.id))) := by
  have ran : (advance platform world (.runAsync worker.id answers now)).queue =
      some (staged queue worker (runAsync platform queue.owner worker.job answers now (queue.cancelled.contains worker.id))) := by
    simp only [advance,held,advanceQueue,withWorker,found,Option.elim_some,run,body,if_true,World.put]
  have there := same.held
  rw [ran] at there
  cases there
  have staged_ := find_staged found (runAsync platform queue.owner worker.job answers now (queue.cancelled.contains worker.id))
  rcases runAsync_heeds platform queue.owner worker.job answers now (queue.cancelled.contains worker.id) with
    ⟨stage,heeded⟩ | ⟨outcome,stage,heeded⟩
  · rw [heeded]
    rw [stage] at staged_ ⊢
    exact .stopping staged_ stops
  rw [←heeded]
  rw [stage] at staged_ ⊢
  exact .finishing outcome staged_

section
variable (grounded : Grounded world) (step : Step platform world event after) (held : world.queue = some queue) (same : Same queue after next) (stands : Stands worker queue.toSchedule verdict)
include grounded step held same stands

theorem step_stands (waits : (find Worker.id next.workers worker.id).isSome) : ∃ now, Stands worker next.toSchedule now ∧ (verdict ≠ none → now = verdict) ∧
      (verdict = none → ∀ heeded, now = some heeded ↔ Attempts platform worker ⟨world,event,after⟩ heeded) := by
  obtain ⟨rfl,_⟩ := step
  have moves := step_moves grounded held same
  have sound := moves.healthy same.healthy
  obtain ⟨coherent,written⟩ := grounded.valid.live queue held sound
  have keyed := (grounded.valid.durable _ written).keyed
  have active := stands.active coherent
  have stops := moves_cancelled held moves same.held (by rw [active]; exact nofun)
  cases verdict with
  | some fate =>
    refine ⟨some fate,?_,fun _ => rfl,nofun⟩
    cases moves with
    | turned turn => exact turn_stands turn coherent stands same.healthy stops waits
    | saved edit =>
      obtain ⟨_,stays,rfl⟩ := edit_stands edit coherent keyed stands
      exact stays
  | none =>
    obtain ⟨found,body,cancelled⟩ : find Worker.id queue.workers worker.id = some worker ∧ worker.stage = .body ∧ queue.stopState = .cancelled := by
      cases stands with
      | running found body stops => exact ⟨found,body,stops⟩
    by_cases own : ∃ answers now, event = .runAsync worker.id answers now
    · obtain ⟨answers,now,rfl⟩ := own
      refine ⟨_,body_attempts held found body cancelled same,fun some_ => absurd rfl some_,fun _ heeded => ?_⟩
      constructor
      · intro comes
        exact ⟨queue,held,answers,now,rfl,found,Option.some.inj comes⟩
      rintro ⟨_,there,_,_,asked,_,comes⟩
      rw [held] at there
      cases there
      cases asked
      rw [comes]
    have apart : ∀ answers now, event ≠ .runAsync worker.id answers now := fun answers now asked => own ⟨answers,now,asked⟩
    have workers : next.workers = queue.workers := by
      rcases body_kept coherent held found body apart next same.held with kept | empty
      · exact kept
      rw [empty] at waits
      cases waits
    refine ⟨none,.running (by rw [workers]; exact found) body (stops cancelled),fun some_ => absurd rfl some_,fun _ heeded => ?_⟩
    constructor
    · exact nofun
    rintro ⟨_,_,answers,now,asked,_⟩
    exact absurd asked (apart answers now)

theorem stands_ends (ends : find Worker.id next.workers worker.id = none) : ∃ job ∈ next.jobs, job.jobId = worker.job.jobId ∧ verdict = some job.state.isOver ∧
      ∀ heeded, ¬Attempts platform worker ⟨world,event,after⟩ heeded := by
  obtain ⟨rfl,_⟩ := step
  obtain ⟨stage,there,_⟩ := stands.found
  have moves := step_moves grounded held same
  obtain ⟨coherent,written⟩ := grounded.valid.live queue held (moves.healthy same.healthy)
  have healthy := same.healthy
  obtain ⟨other,found,cleared,asked,jobs⟩ : ∃ other, find Worker.id queue.workers other.id = some other ∧
      other.stage = .clearing ∧ event = .clear other.id ∧ next.jobs = queue.jobs := by
    generalize next.toSchedule = now at moves ends healthy ⊢
    cases moves with
    | turned turn => cases turn with
      | same | mark requested state restricts => cases there.symm.trans ends
      | stage _ found =>
        have same := staged_found coherent there found
        subst same
        have later := find_staged there
        exact absurd ((later _).symm.trans ends) nofun
      | fault => cases healthy
      | clear other found stage => exact ⟨other,found,stage,rfl,rfl⟩
    | saved edit =>
      obtain ⟨_,stays,_⟩ := edit_stands edit coherent (grounded.valid.durable _ written).keyed stands
      obtain ⟨_,again,_⟩ := stays.found
      rw [again] at ends
      cases ends
  have same := staged_found coherent there found
  subst same
  cases stands with
  | running again body =>
    have stays : worker.stage = stage := congrArg Worker.stage (Option.some.inj (again.symm.trans there))
    cases body.symm.trans (stays.trans cleared)
  | stopping again | finishing _ again => cases again.symm.trans there; cases cleared
  | clearing job _ mem about =>
    refine ⟨job,jobs ▸ mem,about,rfl,?_⟩
    rintro _ ⟨_,_,_,_,ran,_⟩
    rw [asked] at ran
    cases ran
end

theorem wait_stands (grounded : Grounded world) (held : world.queue = some queue) (stands : Stands worker queue.toSchedule verdict)
    (path : Runs (Recorded (Step platform)) world history after)
    (waits : ∀ taken ∈ history, ∃ next, Same queue taken.after next ∧ (find Worker.id next.workers worker.id).isSome) :
    Grounded after ∧ ∃ next, after.queue = some next ∧ next.identity = queue.identity ∧ ∃ now, Stands worker next.toSchedule now ∧
      (verdict ≠ none → now = verdict) ∧ (verdict = none → ∀ heeded, now = some heeded ↔ ∃ taken ∈ history, Attempts platform worker taken heeded) := by
  induction path with
  | nil =>
    refine ⟨grounded,queue,held,rfl,verdict,stands,fun _ => rfl,fun empty heeded => ?_⟩
    rw [empty]
    exact ⟨nofun,fun ⟨_,there,_⟩ => (not_mem_nil there).elim⟩
  | @step earlier middle taken last prior final ih =>
    obtain ⟨_,_,_⟩ := taken
    obtain ⟨rfl,rfl,step⟩ := final
    obtain ⟨reached,_,there,identity,now,stood,settled,attempted⟩ :=
      ih fun taken mem => waits taken (mem_append_left _ mem)
    obtain ⟨next,same,waiting⟩ := waits _ (mem_append_right _ (mem_singleton_self _))
    obtain ⟨again,stays,keeps,comes⟩ :=
      step_stands reached step there ⟨same.held,same.identity.trans identity.symm,same.healthy⟩ stood waiting
    refine ⟨step_grounded reached step,next,same.held,same.identity,again,stays,?_,?_⟩
    · intro known
      have kept := settled known
      rw [keeps (by rw [kept]; exact known),kept]
    intro unknown heeded
    simp only [mem_append,mem_singleton,or_and_right,exists_or,exists_eq_left]
    rw [←attempted unknown heeded]
    cases now with
    | none =>
      rw [comes rfl heeded]
      exact ⟨.inr,fun either => either.resolve_left nofun⟩
    | some =>
      rw [keeps nofun]
      refine ⟨.inl,fun either => either.elim id fun ⟨other,inside,_,_,_,found,_⟩ => ?_⟩
      rw [there] at inside
      cases inside
      obtain ⟨stage,staged_,_,past⟩ := stood.found
      have body : stage = .body := by
        obtain ⟨_,_,start,_⟩ := stands.found
        rw [found] at staged_
        have stays : worker.stage = stage := congrArg Worker.stage (Option.some.inj staged_)
        rw [←stays]
        exact (start unknown).2
      exact absurd body (past nofun)

section
variable (path : Runs (Recorded (Step platform)) world history after)
include path

theorem sound_after (sound : Sound world) (kept : ∀ taken ∈ history, Sound taken.after) : Sound after := by
  cases path with
  | nil => exact sound
  | step _ last =>
    obtain ⟨_,rfl,_⟩ := last
    exact kept _ (mem_append_right _ (mem_singleton_self _))

theorem saved_after (grounded : Grounded world) (mem : job ∈ savedJobs world) (ended : job.state.isOver) : Grounded after ∧ job ∈ savedJobs after := by
  refine path.preserves (fun now => Grounded now ∧ job ∈ savedJobs now) ?_ ⟨grounded,mem⟩
  intro s _ t before moved
  obtain ⟨rfl,rfl,step⟩ := moved
  exact ⟨step_grounded before.1 step,step_absorbs before.1.valid step before.2 ended⟩
end

theorem saved_final (grounded : Grounded world) (sound : Sound world) (mem : job ∈ savedJobs world)
    (about : job.jobId = jobId) (ended : job.state.isOver) : Final platform jobId world := by
  constructor
  · intro _ _ path kept queue held
    obtain ⟨reached,saved⟩ := saved_after path grounded mem ended
    rw [reached.valid.saved_jobs held (sound_after path sound kept queue held)] at saved
    exact ⟨job,saved,about,ended⟩
  rintro rest after path kept taken inside ⟨_,_,next,now,other,there,same,runs,_⟩
  obtain ⟨front,back,split⟩ := append_of_mem inside
  obtain ⟨prior,step⟩ := path.reached split
  obtain ⟨reached,saved⟩ := saved_after (prior.step ⟨rfl,rfl,step⟩) grounded mem ended
  have healthy := kept taken inside next now
  rw [reached.valid.saved_jobs now healthy] at saved
  have keyed := (reached.valid.durable _ (reached.valid.live next now healthy).2).keyed
  rw [keyed.unique saved there (about.trans same.symm),runs] at ended
  cases ended

theorem listed_final (grounded : Grounded world) (held : world.queue = some queue) (healthy : queue.storageFault = none)
    (mem : job ∈ queue.jobs) (about : job.jobId = jobId) : Final platform jobId world ↔ job.state.isOver := by
  have written := (grounded.valid.live queue held healthy).2
  constructor
  · intro final
    obtain ⟨_,there,same,ended⟩ := final.ended [] world .nil (fun _ inside => (not_mem_nil inside).elim) queue held
    rw [(grounded.valid.durable _ written).keyed.unique mem there (about.trans same.symm)]
    exact ended
  intro ended
  refine saved_final grounded ?_ ((grounded.valid.saved_jobs held healthy) ▸ mem) about ended
  intro _ there
  rw [held] at there
  cases there
  exact healthy

theorem returnsAtOnce_over (held : world.queue = some queue) (returned : returnsAtOnce world queue jobId .cancel abandoned fresh disk) :
    ∃ next, (stopAsync world queue jobId .cancel abandoned fresh disk).queue = some next ∧ next.storageFault = none ∧
      ∃ job ∈ next.jobs, job.jobId = jobId ∧ job.state.isOver := by
  unfold returnsAtOnce at returned
  simp only [and_eq_true,not_eq_true',decide_eq_true_eq,Option.isNone_iff_eq_none] at returned
  obtain ⟨⟨⟨⟨open_,inactive⟩,present⟩,healthy⟩,found⟩ := returned
  have refuses : (abandoned || queue.storageFault.isSome) = false := by rw [present,healthy]; rfl
  unfold stopAsync
  rw [if_neg (ne_true_of_eq_false open_)]
  rw [if_neg inactive,refuses,if_neg Bool.false_ne_true]
  cases target : find QueuedTransfer.jobId queue.jobs jobId with
  | none =>
    rw [target] at found
    cases found
  | some job =>
    rw [target] at found
    dsimp only at found ⊢
    obtain ⟨mem,about⟩ := find_some target
    by_cases ended : job.state.isOver
    · rw [if_pos ended]
      exact ⟨queue,held,healthy,job,mem,about,ended⟩
    rw [if_neg ended]
    rw [or_eq_true,or_iff_right ended] at found
    obtain ⟨_,committed⟩ := Option.isSome_iff_exists.mp found
    rw [committed]
    obtain ⟨_,_,rfl⟩ := commit_some committed
    exact ⟨_,rfl,healthy,restricted .cancel job,mem_amend.mpr (.inr ⟨job,mem,about,rfl⟩),about,rfl⟩

def recorded (queue : Queue) (jobId fresh : Guid) : Queue :=
  capture { queue with localStops := (jobId,fresh) :: queue.localStops, stopState := .cancelled }

theorem stop_stands (grounded : Grounded world) (held : world.queue = some queue) (open_ : queue.disposed = false)
    (healthy : queue.storageFault = none) (active : queue.activeJob = some jobId) (task : queue.activeTask = some pending)
    (step : Step platform world (.stopAsync jobId .cancel abandoned fresh disk) after) :
    ∃ worker ∈ queue.workers, worker.id = pending ∧ worker.job.jobId = jobId ∧ ∃ next verdict, Same queue after next ∧
      Stands worker next.toSchedule verdict ∧ (verdict = none ↔ worker.stage = .body) ∧
      (worker.stage ≠ .body → ∀ later, verdict = some true ↔ Heeded platform queue worker later) := by
  obtain ⟨rfl,_⟩ := step
  obtain ⟨coherent,written⟩ := grounded.valid.live queue held healthy
  have attached := grounded.attached queue held healthy
  obtain ⟨worker,one,works⟩ : ∃ worker, queue.workers = [worker] ∧ queue.activeJob = some worker.job.jobId := by
    rcases coherent.lone with ⟨_,idle⟩ | lone
    · rw [active] at idle
      cases idle
    exact lone
  have there : worker ∈ queue.workers := by rw [one]; exact mem_singleton_self _
  have about : worker.job.jobId = jobId := Option.some.inj (works.symm.trans active)
  have number : worker.id = pending := Option.some.inj ((attached.task worker there).symm.trans task)
  have found : find Worker.id queue.workers worker.id = some worker := by rw [one]; simp [find]
  have ran : (advance platform world (.stopAsync jobId .cancel abandoned fresh disk)).queue = some (recorded queue jobId fresh) := by
    simp [advance,held,advanceQueue,stopAsync,open_,active,World.put,Restriction.state,recorded]
  have restage {stage : Stage} (here : worker.stage = stage) : { worker with stage := stage } = worker := by rw [←here]
  refine ⟨worker,there,number,about,recorded queue jobId fresh,?_⟩
  cases stage : worker.stage with
  | body =>
    exact ⟨none,⟨ran,rfl,healthy⟩,.running found stage rfl,⟨fun _ => rfl,fun _ => rfl⟩,fun outside => absurd rfl outside⟩
  | stopping =>
    refine ⟨some true,⟨ran,rfl,healthy⟩,.stopping (by rw [restage stage]; exact found) rfl,⟨fun same => (by cases same),fun same => (by cases same)⟩,fun _ later => ?_⟩
    exact ⟨fun _ => .stopping stage,fun _ => rfl⟩
  | finishing outcome =>
    refine ⟨_,⟨ran,rfl,healthy⟩,.finishing outcome (by rw [restage stage]; exact found),⟨fun same => (by cases same),fun same => (by cases same)⟩,fun _ later => ?_⟩
    rw [some_inj]
    refine ⟨fun ended => .finishing stage ended,fun heeded => ?_⟩
    cases heeded with
    | finishing again ended => cases stage.symm.trans again; exact ended
    | running again | stopping again | clearing again => cases stage.symm.trans again
  | clearing =>
    obtain ⟨job,listed,same⟩ := attached.listed worker there
    refine ⟨_,⟨ran,rfl,healthy⟩,.clearing job (by rw [restage stage]; exact found) listed same,⟨fun same => (by cases same),fun same => (by cases same)⟩,fun _ later => ?_⟩
    rw [some_inj]
    refine ⟨fun ended => .clearing stage listed same ended,fun heeded => ?_⟩
    cases heeded with
    | clearing _ mem about ended =>
      rw [(grounded.valid.durable _ written).keyed.unique listed mem (same.trans about.symm)]
      exact ended
    | running again | stopping again | finishing again => cases stage.symm.trans again
end

-- A cancel that returns has ended its job for good exactly where the stopped
-- attempt ends the job by itself or is cut off by its cancelled token.
theorem cancel_final {platform : Platform} {earlier later : List (Transition World Event)} {stop : Transition World Event}
    {world : World} {queue : Queue} {jobId : Guid} (path : Runs (Recorded (Step platform)) World.initial (earlier++stop :: later) world)
    (returned : Returns queue jobId stop later) : Final platform jobId world ↔
      (queue.activeJob = some jobId → ∃ worker ∈ queue.workers, Heeded platform queue worker later) := by
  obtain ⟨prior,step⟩ := path.reached rfl
  have grounded := reached_grounded prior
  have done := reached_grounded path
  have onward := path.resumed
  cases returned with
  | @atOnce abandoned fresh disk held asked settled =>
    have inactive : queue.activeJob ≠ some jobId := by
      unfold returnsAtOnce at settled
      simp only [and_eq_true,decide_eq_true_eq] at settled
      exact settled.1.1.1.2
    obtain ⟨next,now,healthy,_,member,about,ended⟩ := returnsAtOnce_over held settled
    rw [asked] at step
    have there : world.queue = some next := by
      rw [←onward.unmoved,←step.1,←now]
      simp only [advance,held,advanceQueue]
    refine ⟨fun _ active => absurd active inactive,fun _ => ?_⟩
    exact (listed_final done there healthy member about).mpr ended
  | @awaited abandoned fresh disk pending waited last held asked open_ healthy active task waits ends =>
    rw [asked] at step
    obtain ⟨worker,there,rfl,about,_,_,same,stands,unknown,decided⟩ :=
      stop_stands grounded held open_ healthy active task step
    obtain ⟨before,final⟩ := onward.reached rfl
    have began := step_grounded grounded step
    obtain ⟨reached,current,now,identity,_,stood,kept,comes⟩ := wait_stands began same.held stands before fun taken member => by
        obtain ⟨other,still,waiting⟩ := waits taken member
        exact ⟨other,⟨still.held,still.identity.trans same.identity.symm,still.healthy⟩,waiting⟩
    obtain ⟨left,ending,gone⟩ := ends
    have following : Same current last.after left :=
      ⟨ending.held,ending.identity.trans (same.identity.symm.trans identity.symm),ending.healthy⟩
    obtain ⟨job,member,belongs,result_,none_⟩ := stands_ends reached final now following stood gone
    have arrived : last.after = world := onward.resumed.unmoved
    rw [listed_final done (arrived ▸ ending.held) ending.healthy member (belongs.trans about)]
    have only : ∀ other ∈ queue.workers, other = worker := by
      have coherent := (grounded.valid.live queue held healthy).1
      rcases coherent.lone with ⟨empty,_⟩ | ⟨one,alone,_⟩
      · rw [empty] at there
        cases there
      rw [alone] at there ⊢
      intro _ inside
      rw [mem_singleton.mp inside,mem_singleton.mp there]
    have heard : job.state.isOver = true ↔ Heeded platform queue worker (waited++[last]) := by
      by_cases body : worker.stage = .body
      · have attempts := comes (unknown.mpr body) true
        rw [result_,some_inj] at attempts
        rw [attempts]
        constructor
        · rintro ⟨_,inside,attempted⟩
          exact .running body (mem_append_left _ inside) attempted
        intro heeded
        cases heeded with
        | running _ inside attempted =>
          rcases mem_snoc.mp inside with earlier | rfl
          · exact ⟨_,earlier,attempted⟩
          exact absurd attempted (none_ true)
        | stopping stage | finishing stage | clearing stage => cases body.symm.trans stage
      rw [←decided body,←kept fun empty => body (unknown.mp empty),result_,some_inj]
    rw [heard]
    refine ⟨fun heeded _ => ⟨worker,there,heeded⟩,fun honoured => ?_⟩
    obtain ⟨other,inside,heeded⟩ := honoured active
    rw [←only other inside]
    exact heeded

def begunTransfer : List Event :=
  openDesk :: queueOne ['v']++[.prepareStart (numbered 1),.startAsync 2 ⟨0,numbered 1,Guid.empty⟩,.acquire 2,
    .verify 2 signedIn false,.act 2 (numbered 2) true]

def cancelled : Event := .stopAsync (numbered 1) .cancel false (numbered 3) true

def answering (session : Except Raised (Option QueuedDownloadSession)) (downloaded : Except Raised Text) : RunAnswers where
  directory := ⟨true,true⟩
  first := portal
  firstSession := session
  firstNow := 0
  resolved := .ok (offered ['v'])
  second := portal
  secondSession := session
  third := portal
  secondNow := 0
  cancelled := false
  recovery := ⟨⟨true,true⟩,true,false,false,.error .other,session,portal,0,false⟩
  lastDirectory := ⟨true,true⟩
  downloaded := downloaded

def working (answers : RunAnswers) : List Event := [.cancel 0,.runAsync 0 answers 0,.settle 0,.finish 0 true]
def endingIn (answers : RunAnswers) : List Event := working answers++[.clear 0]
def stopped : World := begunTransfer.foldl (advance desktop) World.initial
def transition : Transition World Event := ⟨stopped,cancelled,advance desktop stopped cancelled⟩
def waiting (answers : RunAnswers) : List (Transition World Event) := trace (advance desktop) transition.after (endingIn answers)
def returnedTo (answers : RunAnswers) : World := (endingIn answers).foldl (advance desktop) transition.after

theorem answered_run (answers : RunAnswers) (admitted : Admitted (advance desktop) Admissible World.initial (begunTransfer++cancelled :: endingIn answers)) :
    Runs (Recorded (Step desktop)) World.initial (trace (advance desktop) World.initial begunTransfer++transition :: waiting answers) (returnedTo answers) := by
  have path := Runs.recorded_admitted (advance desktop) World.initial _ admitted
  rw [trace_append,foldl_append] at path
  simp only [waiting,returnedTo,transition,stopped]
  generalize begunTransfer.foldl (advance desktop) World.initial = reached at path ⊢
  exact path

def runningQueue : Queue := stopped.queue.get (by decide +kernel)

def observed (present : Bool) (world : World) : Bool :=
  world.queue.any fun next => decide (next.identity = runningQueue.identity) && next.storageFault.isNone &&
    (find Worker.id next.workers 0).isSome == present

theorem observed_same (seen : observed present world) : ∃ next, Same runningQueue world next ∧ (find Worker.id next.workers 0).isSome = present := by
  unfold observed at seen
  cases held : world.queue with
  | none => rw [held] at seen; cases seen
  | some next =>
    rw [held] at seen
    simp only [Option.any_some,and_eq_true,decide_eq_true_eq,Option.isNone_iff_eq_none,beq_iff_eq] at seen
    exact ⟨next,⟨held,seen.1.1,seen.1.2⟩,seen.2⟩

theorem answered_returns (answers : RunAnswers)
    (waits : (trace (advance desktop) transition.after (working answers)).all (fun taken => observed true taken.after))
    (ends : observed false (returnedTo answers)) : Returns runningQueue (numbered 1) transition (waiting answers) := by
  have active : runningQueue.activeJob = some (numbered 1) := by decide +kernel
  have task : runningQueue.activeTask = some 0 := by decide +kernel
  rw [waiting,endingIn,trace_concat]
  refine .awaited (some_get _).symm rfl (by decide +kernel) (by decide +kernel) active task ?_ ?_
  · intro taken inside
    exact observed_same (all_eq_true.mp waits taken inside)
  obtain ⟨next,same,gone⟩ := observed_same ends
  exact ⟨next,same,by simpa using gone⟩

def cutOff : RunAnswers := answering (.ok (some person)) (.error .operationCanceled)
def signedOut : RunAnswers := answering (.ok none) (.error .operationCanceled)
def runningWorker : Worker := runningQueue.workers.get ⟨0,by decide +kernel⟩
def signalledQueue : Queue := (advance desktop transition.after (.cancel 0)).queue.get (by decide +kernel)
def leftQueue : Queue := (returnedTo signedOut).queue.get (by decide +kernel)

theorem cancel_final_example : Final desktop (numbered 1) (returnedTo cutOff) := by
  have returned : Returns runningQueue (numbered 1) transition (waiting cutOff) :=
    answered_returns cutOff (by decide +kernel) (by decide +kernel)
  have number : runningWorker.id = 0 := by decide +kernel
  have attempted : Attempts desktop runningWorker ⟨advance desktop transition.after (.cancel 0),.runAsync 0 cutOff 0,
        advance desktop (advance desktop transition.after (.cancel 0)) (.runAsync 0 cutOff 0)⟩ true :=
    ⟨signalledQueue,(some_get _).symm,cutOff,0,by rw [number],by decide +kernel,by decide +kernel⟩
  refine (cancel_final (answered_run cutOff (by decide +kernel)) returned).mpr fun _ => ?_
  exact ⟨runningWorker,get_mem _ _,.running (by decide +kernel) (mem_cons_of_mem _ mem_cons_self) attempted⟩

theorem cancel_overtaken : Runs (Recorded (Step desktop)) World.initial
      (trace (advance desktop) World.initial begunTransfer++transition :: waiting signedOut) (returnedTo signedOut) ∧
    Returns runningQueue (numbered 1) transition (waiting signedOut) ∧ ¬Final desktop (numbered 1) (returnedTo signedOut) := by
  refine ⟨answered_run signedOut (by decide +kernel),answered_returns signedOut (by decide +kernel) (by decide +kernel),?_⟩
  intro final
  have startable : ∀ job ∈ leftQueue.jobs, job.state = .loginRequired := by decide +kernel
  obtain ⟨job,member,_,ended⟩ := final.ended [] _ .nil (fun _ inside => (not_mem_nil inside).elim) leftQueue (some_get _).symm
  rw [startable job member] at ended
  cases ended
end LedgeTopOps.TransferCancellation
