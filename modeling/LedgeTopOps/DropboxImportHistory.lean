import LedgeTopOps.DropboxImportRuns

namespace LedgeTopOps.DropboxImports
open FileTransfers StepRuns KeyedRows

variable {mode : ConflictMode}

inductive Changed (mode : ConflictMode) (b : Bucket) (old row : Item Source) : Prop where
  | same (status : row.status = old.status)
  | stopped (status : row.status = .running ∨ row.status = .failed ∨ row.status = .cancelled)
  | renewed (status : row.status = .retrying) (clear : Unpublished b row.id ∧ b.staging row.id = none)
  | completed (status : row.status = .completed) (done : Finished mode b row.id row.source)

structure Rewritten (mode : ConflictMode) (b : Bucket) (t u : Tables Source) : Prop where
  rows : ∀ row ∈ u.items, ∃ old ∈ t.items, old.id = row.id ∧ old.source = row.source ∧ Changed mode b old row
  ids : ∀ old ∈ t.items, ∃ row ∈ u.items, row.id = old.id
  queued : u.job.status = .queued → t.job.status = .queued

theorem Rewritten.job (same : u.items = t.items) (queued : u.job.status = .queued → t.job.status = .queued) : Rewritten mode b t u where
  rows row mem := ⟨row,same ▸ mem,rfl,rfl,.same rfl⟩
  ids old mem := ⟨old,same ▸ mem,rfl⟩
  queued := queued

theorem Shelf.rewritten (shelf : Shelf mode t b) (change : Rewritten mode b t u) : Shelf mode u b where
  early queued := shelf.early (change.queued queued)
  waiting row mem waits := by
    obtain ⟨old,there,ids,_,how⟩ := change.rows row mem
    cases how with
    | same status => exact ids ▸ shelf.waiting old there (status ▸ waits)
    | stopped status => rcases status with status | status | status <;> (rw [status] at waits; cases waits)
    | renewed _ clear => exact clear
    | completed status => rw [status] at waits; cases waits
  completed row mem done := by
    obtain ⟨old,there,ids,sources,how⟩ := change.rows row mem
    cases how with
    | same status => exact ids ▸ sources ▸ shelf.completed old there (status.symm.trans done)
    | stopped status => rcases status with status | status | status <;> (cases status.symm.trans done)
    | renewed status => cases status.symm.trans done
    | completed _ finished => exact ⟨finished.cleared,finished.landed⟩
  once := shelf.once
  owned itemId present := by
    obtain ⟨old,there,same⟩ := shelf.owned itemId present
    obtain ⟨row,mem,ids⟩ := change.ids old there
    exact ⟨row,mem,ids.trans same⟩
  skipped row mem skipped := by
    obtain ⟨old,there,_,_,how⟩ := change.rows row mem
    cases how with
    | same status => exact shelf.skipped old there (status.symm.trans skipped)
    | stopped status => rcases status with status | status | status <;> (cases status.symm.trans skipped)
    | renewed status | completed status => cases status.symm.trans skipped
  replaced := shelf.replaced
  tags := shelf.tags

theorem Stage.rewritten (stage : Stage mode t b itemId source) (change : Rewritten mode b t u)
    (own : ∀ item ∈ t.items, item.id = itemId → item.source = source) : Stage mode u b itemId source where
  shelf := stage.shelf.rewritten change
  current := stage.current
  skips row mem here done unpublished := by
    obtain ⟨old,there,ids,sources,how⟩ := change.rows row mem
    cases how with
    | same status => exact stage.skips old there (ids.trans here) (status.symm.trans done) unpublished
    | stopped status => rcases status with status | status | status <;> (cases status.symm.trans done)
    | renewed status => rw [status] at done; cases done
    | completed _ finished =>
      have same : row.source = source := sources.symm.trans (own old there (ids.trans here))
      subst here
      subst same
      exact finished.passed unpublished
  empty := stage.empty

theorem waiting_stage (ledger : Ledger t) (shelf : Shelf mode t b) (mem : item ∈ t.items) (waits : item.status.waiting) :
    Stage mode t b item.id item.source where
  shelf := shelf
  current := .inl ⟨(shelf.waiting item mem waits).1,fun present => absurd (shelf.waiting item mem waits).2 present⟩
  skips other there same done := by
    rw [ledger.keyed.unique there mem same] at done
    rw [done] at waits; cases waits
  empty _ := (shelf.waiting item mem waits).2

theorem mark_rewritten : Rewritten mode b t (markItemRunning itemId t) where
  rows row mem := by
    rcases mem_amend.mp mem with ⟨old,_⟩ | ⟨old,there,_,rfl⟩
    · exact ⟨row,old,rfl,rfl,.same rfl⟩
    refine ⟨old,there,startAttempt_id.symm,startAttempt_source.symm,?_⟩
    show Changed mode b old (startAttempt old)
    unfold startAttempt
    split
    · exact .stopped (.inl rfl)
    exact .same rfl
  ids old mem := by
    by_cases here : old.id = itemId
    · exact ⟨startAttempt old,mem_amend.mpr (.inr ⟨old,mem,here,rfl⟩),startAttempt_id⟩
    exact ⟨old,mem_amend.mpr (.inl ⟨mem,here⟩),rfl⟩
  queued := id

theorem set_rewritten (items : u.items = (t.mark itemId target).items) (queued : u.job.status = .queued → t.job.status = .queued)
    (changed : ∀ old ∈ t.items, old.id = itemId → Changed mode b old { old with status := target }) : Rewritten mode b t u where
  rows row mem := by
    rw [items] at mem
    rcases mark_mem mem with ⟨old,_⟩ | ⟨old,there,here,rfl⟩
    · exact ⟨row,old,rfl,rfl,.same rfl⟩
    exact ⟨old,there,rfl,rfl,changed old there here⟩
  ids old mem := by
    rw [items]
    by_cases here : old.id = itemId
    · exact ⟨{ old with status := target },mem_amend.mpr (.inr ⟨old,mem,here,rfl⟩),rfl⟩
    exact ⟨old,mem_amend.mpr (.inl ⟨mem,here⟩),rfl⟩
  queued := queued

theorem finalize_rewritten (closes : status.open' = false) :
    Rewritten mode b t (finalizeJob recounts status t) where
  rows row mem := by
    obtain ⟨old,there,rfl⟩ := List.mem_map.mp mem
    refine ⟨old,there,closeItem_id.symm,?_,?_⟩
    · show old.source = (closeItem old).source
      unfold closeItem; split <;> rfl
    show Changed mode b old (closeItem old)
    unfold closeItem
    split
    · exact .stopped (.inr (.inr rfl))
    exact .same rfl
  ids old mem := ⟨closeItem old,List.mem_map_of_mem mem,closeItem_id⟩
  queued waits := by
    unfold finalizeJob at waits
    split at waits
    · change status = .queued at waits
      rw [waits] at closes; cases closes
    exact waits

theorem replaceItems_shelf (shelf : Shelf mode t b) (queued : t.job.status = .queued) : Shelf mode (replaceItems sources t) b := by
  obtain ⟨none,clear⟩ := shelf.early queued
  have unpublished (itemId : Nat) : Unpublished b itemId := by
    intro _ mem
    rw [none] at mem; cases mem
  have fresh : ∀ row ∈ (replaceItems sources t).items, row.status = .queued := by
    intro _ mem
    obtain ⟨_,_,rfl⟩ := replaceItems_mem mem
    rfl
  refine ⟨fun _ => ⟨none,clear⟩,fun row _ _ => ⟨unpublished row.id,clear row.id⟩,fun row mem done => ?_,shelf.once,
    fun itemId present => absurd (clear itemId) present,fun row mem skipped => ?_,shelf.replaced,shelf.tags⟩
  · rw [fresh row mem] at done; cases done
  rw [fresh row mem] at skipped; cases skipped

def Inside (mode : ConflictMode) (t : Tables Source) (b : Bucket) : Pc Source Place ImportError → Prop
  | .mark a | .reread a | .settled (.transfer a _) | .thrown (.transfer a) | .wait a => Stage mode t b a.item.id a.item.source
  | .work a _ place => Stage mode t b a.item.id a.item.source ∧ Fitting mode t b a.item.id a.item.source place
  | .result a _ skipped => Stage mode t b a.item.id a.item.source ∧ skipped = false ∧ Finished mode b a.item.id a.item.source
  | .failure a _ error => Stage mode t b a.item.id a.item.source ∧ Raised b a.item.id error
  | _ => True

def Holds (mode : ConflictMode) (t : Tables Source) (b : Bucket) (pc : Pc Source Place ImportError) : Prop :=
  Shelf mode t b ∧ Inside mode t b pc

theorem enterFinalize_inside : Inside mode t b (enterFinalize cache) := by
  unfold enterFinalize
  split <;> trivial

theorem visit_inside : Inside mode t b (visit cache rows) := by
  induction rows with
  | nil => exact enterFinalize_inside
  | cons _ _ ih =>
    unfold visit
    split
    · trivial
    exact ih

theorem enterAttempt_inside (stage : Stage mode t b a.item.id a.item.source) : Inside mode t b (enterAttempt cache a) := by
  unfold enterAttempt
  split
  · split
    · exact visit_inside
    · exact stage
    · exact stage
  exact visit_inside

theorem enterSnapshot_inside : Inside mode t b (enterSnapshot cache) := by
  unfold enterSnapshot enterPersist
  split
  · split <;> trivial
  trivial

theorem throws_inside (inside : Inside mode t b pc) : Inside mode t b pc.throws := by
  cases pc with
  | mark | reread | thrown => exact inside
  | work | result | failure => exact inside.1
  | settled outcome =>
    cases outcome with
    | transfer => exact inside
    | _ => trivial
  | _ => trivial

theorem enter_inside (inside : Inside mode t b pc) (mem : pc.body = some body) : Inside mode t b body.enter := by
  cases pc with
  | mark | reread => cases mem; exact inside
  | work | result | failure => cases mem; exact inside.1
  | settled outcome =>
    cases mem
    cases outcome with
    | transfer => exact inside
    | _ => trivial
  | thrown =>
    cases mem
    cases body with
    | transfer => exact inside
    | _ => trivial
  | snapshot | persist | finalize | judge | verdict | revoke => cases mem; trivial
  | _ => cases mem

theorem statement_holds (ran : statement effect goes escape t reply = some (u,after)) (before : Holds mode t b escape)
    (effects : reply.effective → Holds mode (effect t) b goes ∧ Holds mode (effect t) b escape) : Holds mode u b after := by
  rcases statement_cases ran with ⟨effective,rfl,rfl | rfl⟩ | ⟨rfl,rfl⟩
  · exact (effects effective).1
  · exact (effects effective).2
  exact before

theorem read_holds
    (ran : statement id goes escape t reply = some (u,after)) (before : Holds mode t b escape) (going : Holds mode t b goes) : Holds mode u b after :=
  statement_holds ran before fun _ => ⟨going,before⟩

theorem own_source (trying : Trying t cache a) : ∀ item ∈ t.items, item.id = a.item.id → item.source = a.item.source := trying.source

theorem call_holds (sound : Sound t cache pc) (spare : reply.effective → pc.spared (importer mode) t) (holds : Holds mode t b pc)
    (ran : pc.call importOptions (importer mode) cache t reply = some (u,after)) : Holds mode u b after := by
  obtain ⟨shelf,inside⟩ := holds
  have escape : Holds mode t b pc.throws := ⟨shelf,throws_inside inside⟩
  have fits := sound.fits
  have job {u : Tables Source} (same : u.items = t.items) (queued : u.job.status = .queued → t.job.status = .queued) : Shelf mode u b :=
    shelf.rewritten (.job same queued)
  cases pc with
  | start =>
    refine read_holds ran escape ⟨shelf,?_⟩
    split
    · split
      · trivial
      · exact enterSnapshot_inside
    trivial
  | credential =>
    refine read_holds ran escape ⟨shelf,?_⟩
    split
    · trivial
    exact enterSnapshot_inside
  | snapshot =>
    cases reply with
    | sources | failed => cases ran; exact ⟨shelf,trivial⟩
    | ok | active _ | moved _ => cases ran
  | persist sources =>
    refine statement_holds ran escape fun effective => ?_
    have after : Shelf mode (replaceItems sources t) b := replaceItems_shelf shelf (of_decide_eq_true (spare effective))
    exact ⟨⟨after,trivial⟩,⟨after,trivial⟩⟩
  | resume =>
    refine read_holds ran escape ⟨shelf,?_⟩
    split
    · split <;> trivial
    trivial
  | list => exact read_holds ran escape ⟨shelf,visit_inside⟩
  | check item =>
    obtain ⟨_,waits,loop⟩ := fits
    refine read_holds ran escape ⟨shelf,?_⟩
    split
    · trivial
    split
    · trivial
    exact enterAttempt_inside (waiting_stage sound.ledger shelf (loop.listed item (.head _)) waits)
  | share item =>
    obtain ⟨_,waits,loop⟩ := fits
    cases reply with
    | active =>
      cases ran
      refine ⟨shelf,?_⟩
      split
      · exact enterAttempt_inside (waiting_stage sound.ledger shelf (loop.listed item (.head _)) waits)
      trivial
    | failed => cases ran; exact ⟨shelf,trivial⟩
    | ok | sources _ | moved _ => cases ran
  | stop =>
    have after : Shelf mode (stopJob t) b := job rfl nofun
    exact statement_holds ran escape fun _ => ⟨⟨after,enterFinalize_inside⟩,⟨after,trivial⟩⟩
  | mark attempt =>
    have after : Stage mode (markItemRunning attempt.item.id t) b attempt.item.id attempt.item.source :=
      inside.rewritten mark_rewritten (own_source fits.2)
    exact statement_holds ran escape fun _ => ⟨⟨after.shelf,after⟩,⟨after.shelf,after⟩⟩
  | reread =>
    refine read_holds ran escape ⟨shelf,?_⟩
    split
    · exact ⟨inside,trivial⟩
    exact inside
  | work | settled | thrown | ended => cases ran
  | result attempt current =>
    obtain ⟨_,trying,_,own⟩ := fits
    obtain ⟨stage,rfl,finished⟩ := inside
    have faulty (message : String) : Raised b attempt.item.id ((importer mode).fault message) := nofun
    have change : Rewritten mode b t (markItemResult current false t) := by
      refine set_rewritten markItemResult_items (fun queued => markItemResult_status.symm.trans queued) fun old there here => ?_
      refine .completed rfl ?_
      have same : old.id = attempt.item.id := here.trans own.1
      rw [same,trying.source old there same]
      exact finished
    have after := stage.rewritten change (own_source trying)
    cases reply with
    | ok => cases ran; exact ⟨after.shelf,after⟩
    | failed committed message =>
      cases committed with
      | true => cases ran; exact ⟨after.shelf,after,faulty message⟩
      | false => cases ran; exact ⟨shelf,stage,faulty message⟩
    | _ => cases ran
  | failure _ current error =>
    obtain ⟨_,trying,_,own⟩ := fits
    obtain ⟨stage,raised⟩ := inside
    refine statement_holds ran escape fun effective => ?_
    have agree := (Bool.and_eq_true_iff.mp (spare effective)).2
    have change : Rewritten mode b t (markItemFailure current ((importer mode).retryable error) t) := by
      refine set_rewritten markItemFailure_items (fun queued => markItemFailure_status.symm.trans queued) fun old there here => ?_
      rcases failureStatus_cases current ((importer mode).retryable error) with ends | ⟨again,retries,few⟩
      · exact .stopped (.inr (.inl ends))
      have repeats : (importer mode).again error := by simpa [retries,few] using agree
      have clear := raised repeats
      refine .renewed again ?_
      rw [here.trans own.1]
      exact clear
    have after := stage.rewritten change (own_source trying)
    exact ⟨⟨after.shelf,after⟩,⟨after.shelf,after⟩⟩
  | wait attempt =>
    have stage : Stage mode t b attempt.item.id attempt.item.source := inside
    refine read_holds ran escape ⟨shelf,enterAttempt_inside ?_⟩
    exact stage
  | finalize | judge => exact read_holds ran escape ⟨shelf,trivial⟩
  | verdict status =>
    have after : Shelf mode (finalizeJob importOptions.recounts status t) b := shelf.rewritten (finalize_rewritten fits.2.1)
    refine statement_holds ran escape fun _ => ⟨⟨after,?_⟩,⟨after,trivial⟩⟩
    split <;> trivial
  | revoke => exact read_holds ran ⟨shelf,trivial⟩ ⟨shelf,trivial⟩
  | caught =>
    have after : Shelf mode (failJob t) b := job rfl failJob_queued
    exact statement_holds ran escape fun _ => ⟨⟨after,trivial⟩,⟨after,trivial⟩⟩
  | _ => exact fits.elim

theorem moved_holds (sound : Sound t cache pc)
    (holds : Holds mode t b pc) (ran : pc.moved (importer mode) cancelled b reply = some (changed,after)) : Holds mode t changed after := by
  unfold Pc.moved at ran
  split at ran
  · rename_i attempt current place answer
    obtain ⟨counting,trying,taken,own⟩ := sound.fits
    obtain ⟨_,stage,fitting⟩ := holds
    obtain ⟨step,called,same⟩ := Option.map_eq_some_iff.mp ran
    obtain ⟨rfl,rfl⟩ := Prod.mk.inj same
    have working : Working mode t b attempt.item.id attempt.item.source := ⟨stage,counting,trying.row,taken⟩
    rw [←own.1,←own.2.1] at working fitting
    obtain ⟨still,yields⟩ := importOneFile_sound working fitting called
    rw [own.1,own.2.1] at still yields
    refine ⟨still.stage.shelf,?_⟩
    obtain ⟨_,progress⟩ := step
    cases progress with
    | «at» place | finished skipped | raised error => exact ⟨still.stage,yields⟩
  cases ran

theorem Fitting.items (fitting : Fitting mode t b itemId source place) (same : u.items = t.items) : Fitting mode u b itemId source place := by
  have fresh {destination : Destination} (before : Fresh mode t b itemId source destination) : Fresh mode u b itemId source destination :=
    ⟨before.unpublished,before.chosen,before.unnamed,same ▸ before.open'⟩
  cases place with
  | resolve => trivial
  | findStaged | dropStaged | checkStaged | remove | verify | abort | cleanup | cleaned => exact fitting
  | _ =>
    exact ⟨fresh fitting.1,fitting.2⟩

theorem record_inside (inside : Inside mode t b (.settled outcome)) : Inside mode t b (outcome.proceed (outcome.keep cache)) := by
  cases outcome with
  | snapshot sources =>
    show Inside mode t b (enterPersist _ sources)
    unfold enterPersist
    split <;> trivial
  | persist | finalize => trivial
  | transfer _ terminal =>
    cases terminal with
    | true => exact visit_inside
    | false => exact inside

theorem cancel_inside (inside : Inside mode t b pc) (shelf : Shelf mode (requestCancellation t) b) : Inside mode (requestCancellation t) b pc := by
  have staged {itemId : Nat} {source : Source} (stage : Stage mode t b itemId source) : Stage mode (requestCancellation t) b itemId source :=
    ⟨shelf,stage.current,stage.skips,stage.empty⟩
  cases pc with
  | mark | reread | wait => exact staged inside
  | work => exact ⟨staged inside.1,inside.2.items rfl⟩
  | result | failure => exact ⟨staged inside.1,inside.2⟩
  | settled outcome =>
    cases outcome with
    | transfer => exact staged inside
    | _ => trivial
  | thrown body =>
    cases body with
    | transfer => exact staged inside
    | _ => trivial
  | _ => trivial

theorem cancel_holds (holds : Holds mode t b pc) : Holds mode (requestCancellation t) b pc :=
  have shelf : Shelf mode (requestCancellation t) b := holds.1.rewritten (.job rfl requestCancellation_job.2.2.1)
  ⟨shelf,cancel_inside holds.2 shelf⟩

theorem imports_carried : Carried importOptions (importer mode) (Holds mode) where
  call sound spare holds ran := call_holds sound spare holds ran
  moved sound holds ran := moved_holds sound holds ran
  again _ holds mem := ⟨holds.1,enter_inside holds.2 mem⟩
  record _ holds := ⟨holds.1,record_inside holds.2⟩
  caught holds := ⟨holds.1,trivial⟩
  start holds := ⟨holds.1,trivial⟩
  cancel holds := cancel_holds holds
  others change := change.elim

structure TruthfulImport (mode : ConflictMode) (t : Tables Source) (b : Bucket) : Prop where
  completed : t.job.status = .completed → ∀ item ∈ t.items, item.status = .completed
  succeeded : t.job.succeeded ≤ t.items.countP (·.status = .completed)
  failed : t.job.failed ≤ t.items.countP (·.status = .failed)
  once : ∀ itemId, b.published.countP (·.item = itemId) ≤ 1
  landed : mode ≠ .skip → ∀ item ∈ t.items, item.status = .completed → Landed b item.id item.source.size
  replaced : ∀ publication ∈ b.published, mode = .replace ∨ logicallyAbsent publication.replaced = true
  cleared : t.job.status = .completed → ∀ itemId, b.staging itemId = none

theorem succeeded_completed (shelf : Shelf mode t b) (mem : item ∈ t.items) (done : item.status.succeeded) : item.status = .completed := by
  have skipped := shelf.skipped item mem
  revert done skipped
  cases item.status <;> simp [ItemStatus.succeeded]

theorem Shelf.truthful (shelf : Shelf mode t b) (ledger : Ledger t) : TruthfulImport mode t b where
  completed done item mem := succeeded_completed shelf mem (ledger.completed done item mem)
  succeeded := by
    rw [ledger.succeeded]
    exact List.countP_mono_left fun item mem done => decide_eq_true (succeeded_completed shelf mem done)
  failed := Nat.le_of_eq ledger.failed
  once := shelf.once
  landed loud item mem done := (shelf.completed item mem done).2 loud
  replaced := shelf.replaced
  cleared done itemId := by
    by_contra present
    obtain ⟨item,mem,rfl⟩ := shelf.owned itemId present
    exact present (shelf.completed item mem (succeeded_completed shelf mem (ledger.completed done item mem))).1

theorem untouched_shelf (untouched : Untouched b) : Holds mode { job := { status := .queued }, items := [], ids := 0 } b .start := by
  refine ⟨⟨fun _ => ⟨untouched.published,untouched.staging⟩,nofun,nofun,fun itemId => ?_,fun itemId present => absurd (untouched.staging itemId) present,
    nofun,fun publication mem => ?_,fun key object itemId found tag => ?_⟩,trivial⟩
  · rw [untouched.published]; exact Nat.zero_le 1
  · rw [untouched.published] at mem; cases mem
  rw [untouched.objects key object found] at tag; cases tag

section
variable {w : ImportWorld} {actions : List ImportAction} {bucket : Bucket}

-- A selection's batch finds its job queued, an outcome an item that has none, `completed` no running item; the item
-- retries a failure only if the loop does.
abbrev Spared (mode : ConflictMode) (w : ImportWorld) (action : ImportAction) : Prop := FileTransfers.spared (importer mode) w action = true

theorem imports_truthful (untouched : Untouched bucket)
    (run : Runs (Guarded (runDropboxImportJob mode) (Spared mode)) (initial bucket) actions w) : TruthfulImport mode w.tables w.store := by
  have spared : Runs (SparedStep importOptions (importer mode)) (initial bucket) actions w := run
  obtain ⟨_,_,_,sound,holds,_⟩ := (run_single imports_carried (untouched_shelf untouched) spared).flows
  exact holds.1.truthful sound.ledger
end

def emptyBucket : Bucket := ⟨fun _ => none,fun _ => none,0,[]⟩

theorem emptyBucket_untouched : Untouched emptyBucket := ⟨nofun,fun _ => rfl,rfl⟩

def arrive (actions : List ImportAction) : Option ImportWorld := follow (next importOptions (importer .autorename)) (initial emptyBucket) actions

def selected : List ImportAction :=
  [.reply 0 .ok,.reply 0 .ok,.reply 0 (.sources [⟨"Jobs/Clients/site.txt",0⟩]),.record 0,.reply 0 .ok,.record 0,.reply 0 .ok,.reply 0 .ok,
    .reply 0 .ok,.reply 0 .ok]

def attempted (answers : List Answer) : List ImportAction :=
  [.reply 0 .ok,.reply 0 .ok]++answers.map (fun answer => .reply 0 (.moved answer))++[.reply 0 .ok]

def finished : List ImportAction := [.reply 0 .ok,.reply 0 .ok,.reply 0 .ok,.reply 0 .ok,.record 0]
def imported : List ImportAction := selected++attempted [.ok,.ok]++[.record 0]++finished
def importedWorld : ImportWorld := (arrive imported).getD (initial emptyBucket)

theorem imports_truthful_example : importedWorld.tables.job.status = .completed ∧ importedWorld.tables.job.succeeded = 1 ∧
    TruthfulImport .autorename importedWorld.tables importedWorld.store :=
  have run : Runs (Guarded (runDropboxImportJob .autorename) (Spared .autorename)) (initial emptyBucket) imported importedWorld :=
    Runs.of_checked rfl
  ⟨rfl,rfl,imports_truthful emptyBucket_untouched run⟩

def stranded : List ImportAction := selected++attempted [.failed false "network"]++[.record 0]++finished
def repeated : List ImportAction := selected++attempted [.ok,.ok]++[.again 0]++attempted [.ok,.ok]

def abandoned : List ImportAction :=
  selected++[.reply 0 .ok,.restart 0,.reply 0 .ok,.reply 0 .ok,.reply 0 .ok,.reply 0 .ok]++finished

theorem imports_untruthful : (∃ w, arrive stranded = some w ∧ w.tables.job.status = .completed ∧ w.tables.items.map (·.status) = [.cancelled] ∧
      ¬TruthfulImport .autorename w.tables w.store) ∧
    (∃ w, arrive repeated = some w ∧ w.tables.job.succeeded = 2 ∧ w.tables.items.map (·.status) = [.completed] ∧ ¬TruthfulImport .autorename w.tables w.store) ∧
    (∃ w, arrive abandoned = some w ∧ w.tables.job.status = .completed ∧ w.tables.items.map (·.status) = [.cancelled] ∧
      ¬TruthfulImport .autorename w.tables w.store) := by
  refine ⟨⟨_,rfl,rfl,rfl,fun truthful => ?_⟩,⟨_,rfl,rfl,rfl,fun truthful => ?_⟩,⟨_,rfl,rfl,rfl,fun truthful => ?_⟩⟩
  · exact absurd (truthful.completed rfl _ (.head _)) (by decide)
  · exact absurd truthful.succeeded (by decide)
  exact absurd (truthful.completed rfl _ (.head _)) (by decide)
end LedgeTopOps.DropboxImports
