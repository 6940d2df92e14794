import LedgeTopOps.TransferQueue

namespace LedgeTopOps.TransferEffects
open JsonTree TransferRecord QueueDocument KeyedRows StepRuns TransferQueue

inductive Edit (queue : Queue) : Event → Schedule → Prop where
  | enqueue (call : Call) (member : call ∈ queue.calls) (asked : call.request = .enqueue resourceReference localPath)
      (checked : call.phase = .acting (some resolved)) (room : queue.jobs.length < maximumJobs)
      (apart : ∀ old ∈ queue.jobs, old.resourceReference = resourceReference → old.destination = localPath → old.state.isOver = true) :
      Edit queue (.act call.id fresh disk)
        { queue.toSchedule with jobs := queue.jobs++[enqueued fresh resourceReference localPath resolved] }
  | start (call : Call) (member : call ∈ queue.calls) (asked : call.request = .start reservation)
      (checked : call.phase = .acting none)
      (found : find QueuedTransfer.jobId queue.jobs reservation.jobId = some job)
      (current : generation queue.toSchedule reservation.jobId = reservation.stopGeneration)
      (idle : queue.activeJob = none) (ready : job.state.isOver = false) :
      Edit queue (.act call.id fresh disk)
        { queue.toSchedule with
          jobs := amend QueuedTransfer.jobId queue.jobs reservation.jobId begun
          activeCancellation := some queue.started
          activeJob := some reservation.jobId
          stopState := .paused
          activeTask := some queue.started
          workers := queue.workers++[⟨queue.started,job,.body⟩]
          started := queue.started + 1 }
  | stop (found : find QueuedTransfer.jobId queue.jobs jobId = some job) (inactive : queue.activeJob ≠ some jobId)
      (open_ : job.state.isOver = false) :
      Edit queue (.stopAsync jobId requested abandoned fresh disk)
        { queue.toSchedule with
          localStops := (jobId,fresh) :: queue.localStops
          jobs := amend QueuedTransfer.jobId queue.jobs jobId (restricted requested) }
  | finish (worker : Worker) (found : find Worker.id queue.workers worker.id = some worker)
      (stage : worker.stage = .finishing outcome) :
      Edit queue (.finish worker.id disk)
        { queue.toSchedule with
          workers := amend Worker.id queue.workers worker.id fun row => { row with stage := .clearing }
          jobs := amend QueuedTransfer.jobId queue.jobs worker.job.jobId (finished outcome) }

inductive Leaves (platform : Platform) (queue : Queue) (worker : Worker) : Stage → Prop where
  | ran (stage : worker.stage = .body) :
      Leaves platform queue worker (runAsync platform queue.owner worker.job found now cancelled)
  | settled (stage : worker.stage = .stopping) : Leaves platform queue worker (.finishing ⟨queue.stopState,none,none⟩)

structure Ended (outcome : Outcome) : Prop where
  queued : outcome.state ≠ .queued
  running : outcome.state ≠ .running
  coded : ∀ code ∈ outcome.errorCode, code ∈ errorCodes

def Proceeds : Stage → Prop
  | .finishing outcome => Ended outcome
  | .clearing => False
  | _ => True

theorem ended_uncoded (queued : state ≠ .queued) (running : state ≠ .running) : Ended ⟨state,none,completed⟩ :=
  ⟨queued,running,nofun⟩

theorem ended_coded (queued : state ≠ .queued) (running : state ≠ .running) (known : code ∈ errorCodes) : Ended ⟨state,some code,completed⟩ := by
  refine ⟨queued,running,fun other same => ?_⟩
  cases same
  exact known

theorem mismatch_ended : Ended mismatch := ended_coded nofun nofun (by simp [errorCodes])

theorem handle_proceeds (raised : Raised) (expiry : Option Int) (now : Int) (cancelled : Bool) : Proceeds (handle raised expiry now cancelled) := by
  cases raised with
  | operationCanceled =>
    unfold handle
    dsimp only
    split
    · trivial
    split
    · exact ended_coded nofun nofun (by simp [errorCodes])
    exact ended_coded nofun nofun (by simp [errorCodes])
  | _ => exact ended_coded nofun nofun (by simp [errorCodes])

theorem recoverExistingAsync_ended (recovered : recoverExistingAsync platform owner job found = .ok (some outcome)) : Ended outcome := by
  unfold recoverExistingAsync at recovered
  split at recovered
  · cases recovered
  split at recovered
  · cases recovered
  split at recovered
  · cases recovered
  split at recovered
  · cases recovered; exact mismatch_ended
  split at recovered
  · cases recovered
  split at recovered
  · cases recovered; exact mismatch_ended
  split at recovered
  · cases recovered
  split at recovered
  · cases recovered; exact mismatch_ended
  split at recovered
  · cases recovered
  split at recovered
  · cases recovered
  · cases recovered; exact ended_uncoded nofun nofun

theorem resolveJob_ended (resolved : resolveJob platform owner job found = .ok (.inl outcome)) : Ended outcome := by
  unfold resolveJob at resolved
  split at resolved
  · cases resolved
  split at resolved
  · cases resolved
  split at resolved
  · cases resolved
  split at resolved
  · cases resolved
  split at resolved
  · cases resolved
  dsimp only at resolved
  split at resolved
  · cases resolved; exact ended_coded nofun nofun (by simp [errorCodes])
  split at resolved
  · cases resolved; exact ended_coded nofun nofun (by simp [errorCodes])
  split at resolved
  · cases resolved
  split at resolved
  · cases resolved
  cases resolved

theorem transferJob_ended (done : transferJob platform owner job found = .ok outcome) : Ended outcome := by
  unfold transferJob at done
  split at done
  · cases done
  · rename_i recovered
    cases done
    split at recovered
    · exact recoverExistingAsync_ended recovered
    cases recovered
  split at done
  · cases done
  split at done
  · cases done
  split at done
  · cases done
  cases done; exact ended_uncoded nofun nofun

theorem runAsync_proceeds (platform : Platform) (owner : Owner) (job : QueuedTransfer) (found : RunAnswers) (now : Int)
    (cancelled : Bool) : Proceeds (runAsync platform owner job found now cancelled) := by
  unfold runAsync
  split
  · exact handle_proceeds _ _ _ _
  · rename_i resolved; exact resolveJob_ended resolved
  split
  · exact handle_proceeds _ _ _ _
  rename_i done; exact transferJob_ended done

inductive Turn (platform : Platform) (queue : Queue) : Event → Schedule → Prop where
  | same : Turn platform queue event queue.toSchedule
  | mark (requested : Restriction) (state : QueuedTransferState) (restricts : state = queue.stopState ∨ state = requested.state) :
      Turn platform queue (.stopAsync jobId requested abandoned fresh disk)
        { queue.toSchedule with localStops := (jobId,fresh) :: queue.localStops, stopState := state }
  | stage (worker : Worker) (found : find Worker.id queue.workers worker.id = some worker)
      (leaves : Leaves platform queue worker next) :
      Turn platform queue event
        { queue.toSchedule with
          workers := amend Worker.id queue.workers worker.id fun row => { row with stage := next } }
  | fault (worker : Worker) (found : find Worker.id queue.workers worker.id = some worker)
      (stage : worker.stage = .finishing outcome) (jobs : List QueuedTransfer) :
      Turn platform queue (.finish worker.id disk)
        { queue.toSchedule with
          workers := amend Worker.id queue.workers worker.id fun row => { row with stage := .clearing }
          storageFault := some outcome.completed
          jobs := jobs }
  | clear (worker : Worker) (found : find Worker.id queue.workers worker.id = some worker)
      (stage : worker.stage = .clearing) :
      Turn platform queue (.clear worker.id)
        { queue.toSchedule with
          activeJob := none
          activeCancellation := none
          workers := drop Worker.id queue.workers worker.id }

def Asked (queue : Queue) : Request → Prop
  | .start reservation => reservation.queue = queue.identity
  | .enqueue resourceReference _ => reference resourceReference = true
  | _ => True

inductive CallFrom (platform : Platform) (queue : Queue) : Call → Prop where
  | kept (call : Call) (member : call ∈ queue.calls) : CallFrom platform queue call
  | moved (old : Call) (member : old ∈ queue.calls) (phase : Phase)
      (checked : ∀ resolved, phase = .acting (some resolved) → validateResolved platform queue.owner resolved = .ok ()) :
      CallFrom platform queue { old with phase }
  | arrived (id : Nat) (request : Request) (asked : Asked queue request) :
      CallFrom platform queue ⟨id,request,.waiting⟩

inductive Effect (platform : Platform) (world : World) (event : Event) (after : World) : Prop where
  | closed (gone : after.queue = none) (kept : after.committed = world.committed) (file : after.file = world.file)
      (count : after.opened = world.opened) (handed : after.reservations = world.reservations)
  | opened (owner : Owner) (values : List QueuedTransfer) (read : stored platform owner world = .ok values)
      (fitting : fits owner (values.map interrupted) = true)
      (queue : after.queue = some (newQueue world owner (values.map interrupted)))
      (saved : after.committed = some ⟨owner,values.map interrupted⟩)
      (file : after.file = some (document owner (values.map interrupted))) (count : after.opened = world.opened + 1)
      (handed : after.reservations = world.reservations)
  | reserved (queue : Queue) (before : world.queue = some queue) (asked : event = .prepareStart jobId)
      (handed : after.reservations = world.reservations++(prepareStart queue jobId).toList)
      (now : after.queue = some queue) (kept : after.committed = world.committed) (file : after.file = world.file)
      (count : after.opened = world.opened)
  | turned (queue next : Queue) (before : world.queue = some queue) (now : after.queue = some next)
      (turn : Turn platform queue event next.toSchedule) (calls : ∀ call ∈ next.calls, CallFrom platform queue call)
      (kept : after.committed = world.committed) (file : after.file = world.file)
      (count : after.opened = world.opened) (handed : after.reservations = world.reservations)
  | saved (queue next : Queue) (before : world.queue = some queue) (now : after.queue = some next)
      (healthy : queue.storageFault = none) (fitting : fits queue.owner next.jobs = true)
      (edit : Edit queue event next.toSchedule) (calls : ∀ call ∈ next.calls, CallFrom platform queue call)
      (saved : after.committed = some ⟨queue.owner,next.jobs⟩) (file : after.file = some (document queue.owner next.jobs))
      (count : after.opened = world.opened) (handed : after.reservations = world.reservations)

theorem commit_some (done : commit world queue values disk = some after) :
    queue.storageFault = none ∧ fits queue.owner values ∧
      after = { world with
        file := some (document queue.owner values)
        committed := some ⟨queue.owner,values⟩
        queue := some { queue with jobs := values } } := by
  unfold commit at done
  split at done
  · cases done
  rename_i passed
  simp only [Bool.or_eq_true,not_or,Bool.not_eq_true,Option.isSome_eq_false_iff,Option.isNone_iff_eq_none, Bool.not_eq_false'] at passed
  exact ⟨passed.1.1,passed.1.2,(Option.some.inj done).symm⟩

theorem commit_getD (done : (commit world queue values disk).getD otherwise = after) :
    (queue.storageFault = none ∧ fits queue.owner values ∧ after = { world with
        file := some (document queue.owner values)
        committed := some ⟨queue.owner,values⟩
        queue := some { queue with jobs := values } }) ∨ after = otherwise := by
  cases committed : commit world queue values disk with
  | none => exact .inr (by rw [←done,committed]; rfl)
  | some =>
    rw [committed,Option.getD_some] at done
    subst done
    exact .inl (commit_some committed)

structure Quiet (platform : Platform) (queue next : Queue) : Prop where
  schedule : next.toSchedule = queue.toSchedule
  calls : ∀ call ∈ next.calls, CallFrom platform queue call

section
variable {id : Nat}

theorem Quiet.idle (schedule : next.toSchedule = queue.toSchedule) (calls : next.calls = queue.calls) : Quiet platform queue next :=
  ⟨schedule,fun call mem => .kept call (calls ▸ mem)⟩

theorem released (mem : call ∈ (release queue id).calls) : CallFrom platform queue call :=
  .kept call (mem_drop.mp mem).1

theorem Quiet.release : Quiet platform queue (release queue id) := ⟨rfl,fun _ mem => released mem⟩

theorem moved (mem : call ∈ amend Call.id queue.calls id fun call => { call with phase })
    (checked : ∀ resolved, phase = .acting (some resolved) → validateResolved platform queue.owner resolved = .ok ()) : CallFrom platform queue call := by
  rcases mem_amend.mp mem with ⟨there,_⟩ | ⟨old,there,_,rfl⟩
  · exact .kept call there
  exact .moved old there phase checked

theorem Quiet.proceed (phase : Phase)
    (checked : ∀ resolved, phase = .acting (some resolved) → validateResolved platform queue.owner resolved = .ok ()) :
    Quiet platform queue (proceed queue id phase) := ⟨rfl,fun _ mem => moved mem checked⟩

theorem Quiet.drainAsync : Quiet platform queue (drainAsync queue id) := ⟨rfl,fun _ mem => moved mem nofun⟩

theorem Quiet.arrive (request : Request) (asked : Asked queue request) : Quiet platform queue (arrive queue id request) := by
  refine ⟨rfl,fun call mem => ?_⟩
  rcases mem_snoc.mp mem with there | rfl
  · exact .kept call there
  exact .arrived id request asked

theorem Quiet.acquire : Quiet platform queue (acquire queue call) := by
  unfold TransferQueue.acquire
  split
  · exact .idle rfl rfl
  split
  · exact ⟨rfl,fun _ mem => released mem⟩
  split
  · exact ⟨rfl,fun _ mem => moved mem nofun⟩
  exact ⟨rfl,fun _ mem => moved mem nofun⟩

theorem Quiet.verifySession (found : SessionAnswers) (abandoned : Bool) : Quiet platform queue (verifySession platform queue call found abandoned) := by
  unfold TransferQueue.verifySession
  dsimp only
  split
  · split
    · exact .release
    · exact .drainAsync
  split
  · exact .proceed _ nofun
  · exact .proceed _ nofun
  · rename_i resolved _ _
    cases accepted : validateResolved platform queue.owner resolved with
    | error => exact .release
    | ok =>
      apply Quiet.proceed
      intro _ same
      cases same
      exact accepted
  exact .release

theorem Quiet.verify (found : SessionAnswers) (abandoned : Bool) : Quiet platform queue (verify platform queue call found abandoned) := by
  unfold TransferQueue.verify
  split
  · exact .verifySession found abandoned
  · exact .verifySession found abandoned
  exact .idle rfl rfl

theorem Quiet.resolve (answer : Except Raised ResolvedQueuedDownload) : Quiet platform queue (resolve queue call answer) := by
  unfold TransferQueue.resolve
  split
  · exact .idle rfl rfl
  split
  · exact .release
  exact .proceed _ nofun

theorem Quiet.drained : Quiet platform queue (drained queue call) := by
  unfold TransferQueue.drained
  split
  · split
    · exact .idle rfl rfl
    · split
      · exact ⟨rfl,fun _ mem => released mem⟩
      · exact .release
  exact .idle rfl rfl

theorem Quiet.cancel (worker : Nat) : Quiet platform queue (cancel queue worker) := by
  unfold TransferQueue.cancel
  split <;> exact .idle rfl rfl
end

variable {world after : World} {event : Event} {id : Nat}

theorem Effect.quiet (held : world.queue = some queue) (next : Queue) (quiet : Quiet platform queue next) : Effect platform world event (world.put next) :=
  .turned queue next held rfl (quiet.schedule ▸ .same) quiet.calls rfl rfl rfl rfl

theorem Effect.unchanged (held : world.queue = some queue) : Effect platform world event world :=
  .turned queue queue held held .same (fun call mem => .kept call mem) rfl rfl rfl rfl

theorem openAsync_effect (ran : openAsync platform world found = after) (unheld : Effect platform world event world)
    (marked : Effect platform world event { world with owned := true }) : Effect platform world event after := by
  unfold openAsync at ran
  split at ran
  · exact ran ▸ unheld
  rename_i owner _
  split at ran
  · exact ran ▸ unheld
  split at ran
  · exact ran ▸ marked
  rename_i values read
  rcases commit_getD ran with ⟨_,fitting,rfl⟩ | rfl
  · exact .opened owner values read fitting rfl rfl rfl rfl rfl
  exact marked

theorem openAsync_opens (owned : openingOwner found = some owner) (directory : found.directory)
    (written : world.file.isNone = false) (unheld : world.queue = none) (read : stored platform owner world = .ok values)
    (fitting : fits owner (values.map interrupted)) (disk : found.disk) :
    (openAsync platform world found).queue = some (newQueue world owner (values.map interrupted)) := by
  unfold openAsync
  rw [owned]
  dsimp only
  rw [directory,written,unheld,read,Bool.and_false]
  dsimp only
  unfold commit newQueue
  rw [fitting,disk]
  rfl

section
variable (held : world.queue = some queue)
include held

theorem enqueueAsync_effect (mem : call ∈ queue.calls)
    (asked : call.request = .enqueue resourceReference localPath) (checked : call.phase = .acting (some resolved))
    (ran : enqueueAsync world (release queue call.id) resourceReference localPath resolved fresh disk = after) :
    Effect platform world (.act call.id fresh disk) after := by
  have refused : Effect platform world (.act call.id fresh disk) (world.put (release queue call.id)) := .quiet held _ .release
  unfold enqueueAsync at ran
  split at ran
  · exact ran ▸ refused
  rename_i passed
  simp only [Bool.or_eq_true,not_or,Bool.not_eq_true,decide_eq_false_iff_not,List.any_eq_false] at passed
  obtain ⟨⟨_,room⟩,apart⟩ := passed
  rcases commit_getD ran with ⟨healthy,fitting,rfl⟩ | rfl
  · have others : ∀ old ∈ queue.jobs, old.resourceReference = resourceReference → old.destination = localPath →
        old.state.isOver := by
      intro old there reference destination
      simpa [reference,destination] using apart old there
    exact .saved queue _ held rfl healthy fitting (.enqueue call mem asked checked (Nat.not_le.mp room) others) (fun _ => released) rfl rfl rfl rfl
  exact refused

theorem beginAsync_effect (mem : call ∈ queue.calls) (asked : call.request = .start reservation) (checked : call.phase = .acting none)
    (ran : beginAsync world (release queue call.id) reservation disk = after) : Effect platform world (.act call.id fresh disk) after := by
  have refused : Effect platform world (.act call.id fresh disk) (world.put (release queue call.id)) := .quiet held _ .release
  unfold beginAsync at ran
  split at ran
  · exact ran ▸ refused
  split at ran
  · exact ran ▸ refused
  rename_i job found
  split at ran
  · exact ran ▸ refused
  rename_i current
  split at ran
  · exact ran ▸ refused
  rename_i passed
  simp only [Bool.or_eq_true,not_or,Bool.not_eq_true,Option.isSome_eq_false_iff,Option.isNone_iff_eq_none] at passed
  obtain ⟨⟨idle,_⟩,ready⟩ := passed
  rcases commit_getD ran with ⟨healthy,fitting,rfl⟩ | rfl
  · exact .saved queue _ held rfl healthy fitting (.start call mem asked checked found (not_not.mp current) idle ready)
      (fun _ => released) rfl rfl rfl rfl
  exact refused

theorem act_effect (mem : call ∈ queue.calls) (ran : act world queue call fresh disk = after) : Effect platform world (.act call.id fresh disk) after := by
  unfold act at ran
  split at ran
  · rename_i asked checked; exact enqueueAsync_effect held mem asked checked ran
  · rename_i asked checked; exact beginAsync_effect held mem asked checked ran
  exact ran ▸ .unchanged held

theorem stopAsync_effect (ran : stopAsync world queue jobId requested abandoned fresh disk = after) :
    Effect platform world (.stopAsync jobId requested abandoned fresh disk) after := by
  unfold stopAsync at ran
  split at ran
  · exact ran ▸ .unchanged held
  split at ran
  · subst ran
    refine .turned queue _ held rfl (.mark requested _ ?_) (fun call mem => .kept call mem) rfl rfl rfl rfl
    split
    · exact .inr rfl
    exact .inl rfl
  rename_i inactive
  split at ran
  · exact ran ▸ .unchanged held
  split at ran
  · exact ran ▸ .unchanged held
  rename_i job found
  split at ran
  · exact ran ▸ .unchanged held
  rename_i unfinished
  rcases commit_getD ran with ⟨healthy,fitting,rfl⟩ | rfl
  · exact .saved queue _ held rfl healthy fitting (.stop found inactive (by simpa using unfinished))
      (fun call mem => .kept call mem) rfl rfl rfl rfl
  exact .turned queue _ held rfl (.mark requested queue.stopState (.inl rfl)) (fun call mem => .kept call mem) rfl rfl rfl rfl

section
variable (found : find Worker.id queue.workers worker.id = some worker)
include found

theorem run_effect (answers : RunAnswers) (now : Int) : Effect platform world event (world.put (run platform queue worker answers now)) := by
  unfold run
  split
  · rename_i stage
    exact .turned queue _ held rfl (.stage worker found (.ran stage)) (fun call mem => .kept call mem)
      rfl rfl rfl rfl
  exact .quiet held _ (.idle rfl rfl)

theorem settle_effect : Effect platform world event (world.put (settle queue worker)) := by
  unfold settle
  split
  · rename_i stage
    exact .turned queue _ held rfl (.stage worker found (.settled stage)) (fun call mem => .kept call mem)
      rfl rfl rfl rfl
  exact .quiet held _ (.idle rfl rfl)

theorem finish_effect (ran : finish world queue worker disk = after) : Effect platform world (.finish worker.id disk) after := by
  unfold finish at ran
  split at ran
  · rename_i outcome stage
    rcases commit_getD ran with ⟨healthy,fitting,rfl⟩ | rfl
    · exact .saved queue _ held rfl healthy fitting (.finish worker found stage) (fun call mem => .kept call mem)
        rfl rfl rfl rfl
    exact .turned queue _ held rfl (.fault worker found stage _) (fun call mem => .kept call mem) rfl rfl rfl rfl
  exact ran ▸ .unchanged held

theorem clear_effect : Effect platform world (.clear worker.id) (world.put (clear queue worker)) := by
  unfold clear
  split
  · rename_i stage
    exact .turned queue _ held rfl (.clear worker found stage) (fun call mem => .kept call mem) rfl rfl rfl rfl
  exact .quiet held _ (.idle rfl rfl)
end

theorem withCall_effect (ran : withCall queue id use world = after)
    (used : ∀ call ∈ queue.calls, call.id = id → Effect platform world event (use call)) : Effect platform world event after := by
  unfold withCall at ran
  cases found : find Call.id queue.calls id with
  | none => rw [found] at ran; exact ran ▸ .unchanged held
  | some call =>
    rw [found] at ran
    obtain ⟨mem,same⟩ := find_some found
    exact ran ▸ used call mem same

theorem withWorker_effect (ran : withWorker queue id use world = after) (used : ∀ worker, find Worker.id queue.workers id = some worker → worker.id = id →
      Effect platform world event (use worker)) : Effect platform world event after := by
  unfold withWorker at ran
  cases found : find Worker.id queue.workers id with
  | none => rw [found] at ran; exact ran ▸ .unchanged held
  | some worker =>
    rw [found] at ran
    exact ran ▸ used worker found (find_some found).2

theorem advanceQueue_effect (ran : advanceQueue platform world queue event = after) : Effect platform world event after := by
  unfold advanceQueue at ran
  cases event with
  | openAsync =>
    exact openAsync_effect ran (.unchanged held) (.turned queue queue held held .same (fun call mem => .kept call mem) rfl rfl rfl rfl)
  | crash => exact ran ▸ .closed rfl rfl rfl rfl rfl
  | prepareStart => exact ran ▸ .reserved queue held rfl rfl held rfl rfl rfl
  | enqueueAsync id resourceReference destination seen =>
    dsimp only at ran
    split at ran
    · exact ran ▸ .unchanged held
    rename_i accepted
    split at ran
    · exact ran ▸ .unchanged held
    exact ran ▸ .quiet held _ (.arrive _ (by simpa [Asked] using accepted))
  | startAsync id reservation =>
    dsimp only at ran
    split at ran
    · exact ran ▸ .unchanged held
    rename_i own
    exact ran ▸ .quiet held _ (.arrive _ (not_not.mp own))
  | call _ request =>
    cases request with
    | enqueue | start => exact ran ▸ .unchanged held
    | _ => exact ran ▸ .quiet held _ (.arrive _ trivial)
  | abandon =>
    refine withCall_effect held ran fun call mem same => ?_
    split
    · exact .quiet held _ ⟨rfl,fun _ there => .kept _ (mem_drop.mp there).1⟩
    exact .unchanged held
  | acquire => exact withCall_effect held ran fun call _ _ => .quiet held _ .acquire
  | verify _ answers abandoned =>
    exact withCall_effect held ran fun call _ _ => .quiet held _ (.verify answers abandoned)
  | resolve _ answer => exact withCall_effect held ran fun call _ _ => .quiet held _ (.resolve answer)
  | act =>
    apply withCall_effect held ran
    intro _ mem same
    subst same
    exact act_effect held mem rfl
  | drained => exact withCall_effect held ran fun call _ _ => .quiet held _ .drained
  | stopAsync => exact stopAsync_effect held ran
  | cancel worker => exact ran ▸ .quiet held _ (.cancel worker)
  | runAsync _ answers now =>
    apply withWorker_effect held ran
    intro _ found same
    subst same
    exact run_effect held found answers now
  | settle =>
    apply withWorker_effect held ran
    intro _ found same
    subst same
    exact settle_effect held found
  | finish =>
    apply withWorker_effect held ran
    intro _ found same
    subst same
    exact finish_effect held found rfl
  | clear =>
    apply withWorker_effect held ran
    intro _ found same
    subst same
    exact clear_effect held found
end

theorem Effect.issued {issued : List Guid} (effect : Effect platform world event after) : Effect platform world event { after with issued := issued } := by
  cases effect with
  | closed gone kept file count handed => exact .closed gone kept file count handed
  | opened owner values read fitting queue saved file count handed =>
    exact .opened owner values read fitting queue saved file count handed
  | reserved queue before asked handed now kept file count =>
    exact .reserved queue before asked handed now kept file count
  | turned queue next before now turn calls kept file count handed =>
    exact .turned queue next before now turn calls kept file count handed
  | saved queue next before now healthy fitting edit calls saved file count handed =>
    exact .saved queue next before now healthy fitting edit calls saved file count handed

theorem advance_effect (platform : Platform) (world : World) (event : Event) : Effect platform world event (advance platform world event) := by
  apply Effect.issued
  split
  · rename_i queue held
    exact advanceQueue_effect held rfl
  rename_i gone
  have shut : Effect platform world event world := .closed gone rfl rfl rfl rfl
  split
  · exact openAsync_effect rfl shut (.closed gone rfl rfl rfl rfl)
  exact shut

@[simp] theorem advance_issued (platform : Platform) (world : World) (event : Event) :
    (advance platform world event).issued = event.fresh.toList++world.issued := rfl
end LedgeTopOps.TransferEffects
