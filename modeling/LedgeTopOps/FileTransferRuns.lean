import LedgeTopOps.FileTransferLedger
import LedgeTopOps.FileTransferWorkflow

namespace LedgeTopOps.FileTransfers
open List KeyedRows StepRuns
open Option (bind_eq_some_iff map_eq_some_iff)

def Reply.effective : Reply σ δ ρ → Bool
  | .ok | .failed true _ => true
  | _ => false

def Tables.unsettled (t : Tables σ) (id : Nat) : Bool := t.items.all fun row => row.id ≠ id || !row.status.settled

-- The state in which a statement of the code does no harm.
def Pc.spared (mover : Mover σ ω π ε δ ρ χ) (t : Tables σ) : Pc σ π ε → Bool
  | .persist _ => t.job.status = .queued
  | .result _ current _ => t.unsettled current.id
  | .failure _ current error => t.unsettled current.id &&
      (!(mover.retryable error && current.attempts < 4) || mover.again error)
  | .verdict status => status ≠ .completed || t.items.all (·.status ≠ .running)
  | .renew => t.job.failed = 0
  | _ => true

def spared (mover : Mover σ ω π ε δ ρ χ) (w : World σ ω π ε) : Action σ δ ρ χ → Bool
  | .reply index reply => match w.flows[index]? with
    | some flow => !reply.effective || flow.pc.spared mover w.tables
    | none => true
  | _ => true

structure Loop (t : Tables σ) (rows : List (Item σ)) : Prop where
  listed : ∀ row ∈ rows, row ∈ t.items
  keyed : Keyed Item.id rows
  ahead : ∀ item ∈ t.items, item.status.waiting = true → ∃ row ∈ rows, row.id = item.id

structure Trying (t : Tables σ) (cache : Cache σ) (a : Attempt σ) : Prop where
  row : ∃ item ∈ t.items, item.id = a.item.id
  ordinal : ∀ item ∈ t.items, item.id = a.item.id → item.ordinal = a.item.ordinal
  source : ∀ item ∈ t.items, item.id = a.item.id → item.source = a.item.source
  waiting : ∀ item ∈ t.items, item.id = a.item.id → item.status.waiting = true → a.number ≤ item.attempts
  running : ∀ item ∈ t.items, item.id = a.item.id → item.status = .running → a.number + 1 ≤ item.attempts
  listed : ∀ row ∈ a.rest, row ∈ t.items ∧ row.id ≠ a.item.id
  keyed : Keyed Item.id a.rest
  ahead : ∀ item ∈ t.items, item.status.waiting = true → item.id = a.item.id ∨ ∃ row ∈ a.rest, row.id = item.id
  uncached : ∀ entry ∈ cache.transfers, entry.1.1 = a.item.ordinal → entry.1.2 < a.number

def Taken (t : Tables σ) (a : Attempt σ) : Prop := ∀ item ∈ t.items, item.id = a.item.id → item.status.waiting = false

def Own (t : Tables σ) (a : Attempt σ) (current : Item σ) : Prop :=
  current.id = a.item.id ∧ current.source = a.item.source ∧ ∀ item ∈ t.items, item.id = a.item.id → item.attempts = current.attempts

def Over (t : Tables σ) (a : Attempt σ) (terminal : Bool) : Prop :=
  ∀ item ∈ t.items, item.id = a.item.id → item.status ≠ .running ∧
    (item.status.waiting = true → terminal = false ∧ a.number + 1 ≤ item.attempts)

def Done (t : Tables σ) : Prop := t.job.cancelRequested = true ∨ ∀ item ∈ t.items, item.status.waiting = false

structure Logged (t : Tables σ) (cache : Cache σ) : Prop where
  below : ∀ entry ∈ cache.transfers, ∀ item ∈ t.items, item.ordinal = entry.1.1 → item.status.unfinished = true → entry.1.2 < item.attempts
  early : t.job.status = .queued → cache.transfers = []

def Fits (t : Tables σ) (cache : Cache σ) : Pc σ π ε → Prop
  | .start | .credential false | .snapshot | .persist _ | .resume | .caught | .ended => True
  | .settled (.snapshot _) | .settled (.persist _) | .thrown .snapshot | .thrown (.persist _) => True
  | .credential true | .list => t.job.status.counting = true
  | .check item rest | .share item rest => t.job.status.counting = true ∧ item.status.waiting = true ∧ Loop t (item :: rest)
  | .stop => t.job.status.counting = true
  | .mark a | .thrown (.transfer a) => t.job.status.counting = true ∧ Trying t cache a
  | .reread a => t.job.status.counting = true ∧ Trying t cache a ∧ Taken t a
  | .work a current _ | .result a current _ | .failure a current _ =>
      t.job.status.counting = true ∧ Trying t cache a ∧ Taken t a ∧ Own t a current
  | .settled (.transfer a terminal) => t.job.status.counting = true ∧ Trying t cache a ∧ Over t a terminal
  | .wait a => t.job.status.counting = true ∧ Trying t cache { a with number := a.number + 1 }
  | .finalize | .revoke | .settled .finalize | .thrown .finalize => Done t
  | .judge job => Done t ∧ job.failed = t.job.failed
  | .verdict status => Done t ∧ status.open' = false ∧
      (status = .completed → ∀ item ∈ t.items, item.status.waiting = false ∧ item.status ≠ .failed)
  | .retry | .renew | .reopen | .create | .answered => False

structure Sound (t : Tables σ) (cache : Cache σ) (pc : Pc σ π ε) : Prop where
  ledger : Ledger t
  recorded : Logged t cache
  fits : Fits t cache pc

section
variable {σ ω π ε δ ρ χ : Type} {t u : Tables σ} {cache : Cache σ} {a : Attempt σ}
  {pc after : Pc σ π ε} {reply : Reply σ δ ρ} {options : Options} {mover : Mover σ ω π ε δ ρ χ} {effect : Tables σ → Tables σ}

theorem enterFinalize_fits (done : Done t) : Fits t cache (enterFinalize cache : Pc σ π ε) := by
  unfold enterFinalize
  split
  · trivial
  exact done

theorem visit_fits (counting : t.job.status.counting) (loop : Loop t rows) (keyed : Keyed Item.id t.items) : Fits t cache (visit cache rows : Pc σ π ε) := by
  induction rows with
  | nil =>
    refine enterFinalize_fits (.inr fun item mem => Bool.eq_false_iff.mpr fun waits => ?_)
    obtain ⟨_,there,_⟩ := loop.ahead item mem waits
    cases there
  | cons row rest ih =>
    unfold visit
    split
    · rename_i waits
      exact ⟨counting,waits,loop⟩
    rename_i idle
    refine ih ⟨fun other there => loop.listed other (.tail _ there),(nodup_cons.mp loop.keyed).2,fun item mem waits => ?_⟩
    obtain ⟨other,there,same⟩ := loop.ahead item mem waits
    rcases mem_cons.mp there with rfl | there
    · have own := keyed.unique (loop.listed _ (.head _)) mem same
      subst own
      exact absurd waits idle
    exact ⟨other,there,same⟩

theorem outcome_none (uncached : ∀ entry ∈ cache.transfers, entry.1.1 = a.item.ordinal → entry.1.2 < a.number) :
    cache.outcome a.item.ordinal a.number = none := by
  have missing : (cache.transfers.find? fun entry => entry.1 = (a.item.ordinal,a.number)) = none := by
    refine find?_eq_none.mpr fun entry mem => ?_
    simp only [decide_eq_true_eq]
    intro same
    have below := uncached entry mem (by rw [same])
    rw [same] at below
    exact Nat.lt_irrefl _ below
  unfold Cache.outcome
  rw [missing]; rfl

theorem Trying.leave (trying : Trying t cache a) (idle : ∀ item ∈ t.items, item.id = a.item.id → item.status.waiting = false) :
    Loop t a.rest where
  listed row there := (trying.listed row there).1
  keyed := trying.keyed
  ahead item mem waits := by
    rcases trying.ahead item mem waits with same | ahead
    · rw [idle item mem same] at waits; cases waits
    exact ahead

theorem enterAttempt_fits (ledger : Ledger t) (counting : t.job.status.counting) (trying : Trying t cache a) :
    Fits t cache (enterAttempt cache a : Pc σ π ε) := by
  unfold enterAttempt
  by_cases few : a.number < 4
  · rw [if_pos few,outcome_none trying.uncached]
    exact ⟨counting,trying⟩
  rw [if_neg few]
  refine visit_fits counting (trying.leave fun item mem same => Bool.eq_false_iff.mpr fun waits => ?_) ledger.keyed
  have tried := trying.waiting item mem same waits
  have least := ledger.attempts item mem waits
  omega

theorem Loop.enter (loop : Loop t (item :: rest)) (ledger : Ledger t) (recorded : Logged t cache) (waits : item.status.waiting) :
    Trying t cache ⟨item,item.attempts,rest⟩ where
  row := ⟨item,loop.listed item (.head _),rfl⟩
  ordinal other mem same := by rw [ledger.keyed.unique mem (loop.listed item (.head _)) same]
  source other mem same := by rw [ledger.keyed.unique mem (loop.listed item (.head _)) same]
  waiting other mem same _ := by
    have known := ledger.keyed.unique mem (loop.listed item (.head _)) same
    exact Nat.le_of_eq (by rw [known])
  running other mem same isRunning := by
    rw [ledger.keyed.unique mem (loop.listed item (.head _)) same] at isRunning
    rw [isRunning] at waits; cases waits
  listed row there := by
    refine ⟨loop.listed row (.tail _ there),fun same => ?_⟩
    exact (nodup_cons.mp loop.keyed).1 (same ▸ mem_map_of_mem there)
  keyed := (nodup_cons.mp loop.keyed).2
  ahead other mem otherWaits := by
    obtain ⟨row,there,same⟩ := loop.ahead other mem otherWaits
    rcases mem_cons.mp there with rfl | there
    · exact .inl same.symm
    exact .inr ⟨row,there,same⟩
  uncached entry mem same :=
    recorded.below entry mem item (loop.listed item (.head _)) same.symm (by simp [ItemStatus.unfinished,waits])

theorem Trying.amend (trying : Trying t cache a) (same : u.items = (t.amend a.item.id change).items)
    (ids : ∀ row, (change row).id = row.id) (ordinals : ∀ row, (change row).ordinal = row.ordinal) (sources : ∀ row, (change row).source = row.source)
    (waits : ∀ item ∈ t.items, item.id = a.item.id → (change item).status.waiting → a.number ≤ (change item).attempts)
    (runs : ∀ item ∈ t.items, item.id = a.item.id → (change item).status = .running → a.number + 1 ≤ (change item).attempts) : Trying u cache a where
  row := by
    obtain ⟨item,mem,here⟩ := trying.row
    refine ⟨change item,?_,(ids item).trans here⟩
    rw [same]
    exact mem_amend.mpr (.inr ⟨item,mem,here,rfl⟩)
  ordinal item mem here := by
    rw [same] at mem
    rcases mem_amend.mp mem with ⟨_,apart⟩ | ⟨old,was,at',rfl⟩
    · exact absurd here apart
    rw [ordinals]; exact trying.ordinal old was at'
  source item mem here := by
    rw [same] at mem
    rcases mem_amend.mp mem with ⟨_,apart⟩ | ⟨old,was,at',rfl⟩
    · exact absurd here apart
    rw [sources]; exact trying.source old was at'
  waiting item mem here := by
    rw [same] at mem
    rcases mem_amend.mp mem with ⟨_,apart⟩ | ⟨old,was,at',rfl⟩
    · exact absurd here apart
    exact waits old was at'
  running item mem here := by
    rw [same] at mem
    rcases mem_amend.mp mem with ⟨_,apart⟩ | ⟨old,was,at',rfl⟩
    · exact absurd here apart
    exact runs old was at'
  listed row there := by
    obtain ⟨mem,apart⟩ := trying.listed row there
    refine ⟨?_,apart⟩
    rw [same]
    exact mem_amend.mpr (.inl ⟨mem,apart⟩)
  keyed := trying.keyed
  ahead item mem waiting := by
    rw [same] at mem
    rcases mem_amend.mp mem with ⟨old,_⟩ | ⟨old,_,at',rfl⟩
    · exact trying.ahead item old waiting
    exact .inl ((ids old).trans at')
  uncached := trying.uncached

theorem Logged.amend {change : Item σ → Item σ} {id : Nat} (recorded : Logged t cache) (same : u.items = (t.amend id change).items)
    (queued : u.job.status = .queued → t.job.status = .queued) (ordinals : ∀ row, (change row).ordinal = row.ordinal)
    (kept : ∀ item ∈ t.items, item.id = id → (change item).status.unfinished →
      item.status.unfinished ∧ item.attempts ≤ (change item).attempts) : Logged u cache := by
  refine ⟨fun entry cached item mem at' unfinished => ?_,fun waits => recorded.early (queued waits)⟩
  rw [same] at mem
  rcases mem_amend.mp mem with ⟨old,_⟩ | ⟨old,was,here,rfl⟩
  · exact recorded.below entry cached item old at' unfinished
  obtain ⟨wasOpen,grown⟩ := kept old was here unfinished
  have below := recorded.below entry cached old was ((ordinals old).symm.trans at') wasOpen
  omega

theorem statement_sound (before : Sound t cache escape)
    (effects : reply.effective → Sound (effect t) cache nextPc ∧ Sound (effect t) cache escape ∧ Kept t (effect t))
    (ran : statement effect nextPc escape t reply = some (u,after)) : Sound u cache after ∧ Kept t u := by
  cases reply with
  | ok =>
    cases ran
    exact ⟨(effects rfl).1,(effects rfl).2.2⟩
  | failed committed =>
    cases committed with
    | true =>
      cases ran
      exact (effects rfl).2
    | false =>
      cases ran
      exact ⟨before,Kept.refl _⟩
  | _ => cases ran

theorem read_sound (throwing : Sound t cache escape) (going : Sound t cache nextPc) (ran : statement id nextPc escape t reply = some (u,after)) :
    Sound u cache after ∧ Kept t u :=
  statement_sound throwing (fun _ => ⟨going,throwing,Kept.refl t⟩) ran

theorem Sound.at (sound : Sound t cache pc) (fits : Fits t cache after) : Sound t cache after := ⟨sound.ledger,sound.recorded,fits⟩

theorem Logged.items (recorded : Logged t cache) (same : u.items = t.items) (queued : u.job.status = .queued → t.job.status = .queued) : Logged u cache :=
  ⟨fun entry cached item mem => recorded.below entry cached item (same ▸ mem),fun waits => recorded.early (queued waits)⟩

theorem Done.items (done : Done t) (same : u.items = t.items) (requested : t.job.cancelRequested → u.job.cancelRequested) : Done u :=
  done.imp requested fun idle item mem => idle item (same ▸ mem)

theorem replaceItems_sound (sound : Sound t cache pc) (queued : t.job.status = .queued) :
    Ledger (replaceItems sources t) ∧ Logged (replaceItems sources t) cache ∧ Kept t (replaceItems sources t) := by
  refine ⟨replaceItems_ledger queued,⟨fun entry cached => ?_,fun _ => sound.recorded.early queued⟩,fun item mem => ?_⟩
  · rw [sound.recorded.early queued] at cached; cases cached
  rw [sound.ledger.queued queued] at mem; cases mem

theorem mark_sound (ledger : Ledger t) (recorded : Logged t cache) (trying : Trying t cache a) :
    Ledger (markItemRunning a.item.id t) ∧ Logged (markItemRunning a.item.id t) cache ∧
      Trying (markItemRunning a.item.id t) cache a ∧ Taken (markItemRunning a.item.id t) a := by
  have grows (item : Item σ) : item.attempts ≤ (startAttempt item).attempts := by
    unfold startAttempt
    split
    · exact Nat.le_succ _
    exact Nat.le_refl _
  have opens (item : Item σ) (unfinished : (startAttempt item).status.unfinished) : item.status.unfinished := by
    unfold startAttempt at unfinished
    split at unfinished
    · rename_i waits; simp [ItemStatus.unfinished,waits]
    exact unfinished
  refine ⟨markItemRunning_ledger ledger,?_,?_,?_⟩
  · exact recorded.amend rfl id (fun row => startAttempt_ordinal) fun item _ _ unfinished => ⟨opens item unfinished,grows item⟩
  · refine trying.amend (show (markItemRunning a.item.id t).items = (t.amend a.item.id startAttempt).items from rfl)
      (fun row => startAttempt_id) (fun row => startAttempt_ordinal) (fun row => startAttempt_source) ?_ ?_
    · intro _ _ _ waits
      cases startAttempt_waiting.symm.trans waits
    · intro item mem here runs
      unfold startAttempt at runs ⊢
      split
      · rename_i waits
        exact Nat.succ_le_succ (trying.waiting item mem here waits)
      rename_i idle
      rw [if_neg idle] at runs
      exact trying.running item mem here runs
  intro _ mem here
  rcases mem_amend.mp mem with ⟨_,apart⟩ | ⟨old,_,_,rfl⟩
  · exact absurd here apart
  exact startAttempt_waiting

theorem unsettled_all {id : Nat} (unsettled : t.unsettled id) : ∀ row ∈ t.items, row.id = id → row.status.settled = false := by
  intro row mem here
  have each := all_eq_true.mp unsettled row mem
  simpa [here] using each

theorem unsettled_unfinished (ledger : Ledger t) (counting : t.job.status.counting) (mem : row ∈ t.items)
    (unsettled : row.status.settled = false) : row.status.unfinished := by
  have apart := ledger.cancelled (counting_open counting) row mem
  have unclosed := unsettled_closed ledger counting mem unsettled
  revert unclosed
  cases row.status <;> first | (intro _; rfl) | nofun

theorem Trying.mark (trying : Trying t cache a) (same : u.items = (t.mark a.item.id target).items)
    (stops : target ≠ .running) (again : target.waiting → ∀ item ∈ t.items, item.id = a.item.id → a.number ≤ item.attempts) : Trying u cache a :=
  trying.amend same (fun _ => rfl) (fun _ => rfl) (fun _ => rfl) (fun item mem here waits => again waits item mem here)
    fun _ _ _ runs => absurd runs stops

theorem markItemResult_items :
    (markItemResult current skipped t).items = (t.mark current.id (if skipped then .skipped else .completed)).items := rfl

theorem markItemFailure_items : (markItemFailure current retryable t).items = (t.mark current.id (failureStatus current retryable)).items := by
  unfold markItemFailure
  split <;> rfl

theorem countJob_status {count : Job → Job} (keeps : ∀ job, (count job).status = job.status ∧ (count job).cancelRequested = job.cancelRequested) :
    (countJob count t).job.status = t.job.status := by
  unfold countJob
  split
  · exact (keeps _).1
  rfl

theorem markItemResult_status : (markItemResult current skipped t).job.status = t.job.status :=
  countJob_status fun _ => ⟨rfl,rfl⟩

theorem markItemFailure_status : (markItemFailure current retryable t).job.status = t.job.status := by
  unfold markItemFailure
  split
  · exact countJob_status fun _ => ⟨rfl,rfl⟩
  rfl

theorem markItemResult_counting (counting : t.job.status.counting) : (markItemResult current skipped t).job.status.counting := by
  rw [markItemResult_status]
  exact counting

theorem markItemResult_own (own : Own t a current) : Own (markItemResult current skipped t) a current := by
  refine ⟨own.1,own.2.1,fun item mem here => ?_⟩
  rcases mark_mem mem with ⟨old,_⟩ | ⟨old,was,at',rfl⟩
  · exact own.2.2 item old here
  exact own.2.2 old was (at'.trans own.1)

theorem over_taken (settled : Over t a true) : Taken t a := fun item mem here =>
  Bool.eq_false_iff.mpr fun waits => nomatch ((settled item mem here).2 waits).1

theorem mark_over (same : u.items = (t.mark a.item.id target).items) (stops : target ≠ .running)
    (again : target.waiting → terminal = false ∧ ∀ item ∈ t.items, item.id = a.item.id → a.number + 1 ≤ item.attempts) : Over u a terminal := by
  intro _ mem here
  rw [same] at mem
  rcases mark_mem mem with ⟨_,apart⟩ | ⟨old,was,at',rfl⟩
  · exact absurd here apart
  exact ⟨stops,fun waits => ⟨(again waits).1,(again waits).2 old was at'⟩⟩

theorem running_of_own (sound : Ledger t) (counting : t.job.status.counting) (taken : Taken t a) (mem : item ∈ t.items)
    (here : item.id = a.item.id) (unsettled : item.status.settled = false) : item.status = .running := by
  have unfinished := unsettled_unfinished sound counting mem unsettled
  have idle := taken item mem here
  simp only [ItemStatus.unfinished,idle,Bool.false_or,decide_eq_true_eq] at unfinished
  exact unfinished

theorem result_sound (ledger : Ledger t) (recorded : Logged t cache) (counting : t.job.status.counting)
    (trying : Trying t cache a) (own : Own t a current) (unsettled : t.unsettled current.id) :
    Ledger (markItemResult current skipped t) ∧ Logged (markItemResult current skipped t) cache ∧
      Trying (markItemResult current skipped t) cache a ∧ Over (markItemResult current skipped t) a true ∧ Kept t (markItemResult current skipped t) := by
  have every := unsettled_all unsettled
  obtain ⟨item,mem,here⟩ := trying.row
  have items : (markItemResult current skipped t).items = (t.mark a.item.id (if skipped then .skipped else .completed)).items := by
    rw [markItemResult_items,own.1]
  have stops : (if skipped then ItemStatus.skipped else .completed) ≠ .running := by cases skipped <;> nofun
  have ends : (if skipped then ItemStatus.skipped else .completed).waiting = false := by cases skipped <;> rfl
  have settles : (if skipped then ItemStatus.skipped else .completed).unfinished = false := by cases skipped <;> rfl
  refine ⟨markItemResult_ledger ledger counting mem (here.trans own.1.symm) (every item mem (here.trans own.1.symm)),?_,?_,?_, markItemResult_kept every⟩
  · refine recorded.amend items (fun queued => markItemResult_status.symm.trans queued) (fun _ => rfl) fun old _ _ unfinished => ?_
    exact absurd unfinished (by rw [settles]; decide)
  · exact trying.mark items stops fun waits => by cases ends.symm.trans waits
  exact mark_over items stops fun waits => by cases ends.symm.trans waits

theorem failure_sound {retryable again : Bool} (ledger : Ledger t) (recorded : Logged t cache) (counting : t.job.status.counting)
    (trying : Trying t cache a) (taken : Taken t a) (own : Own t a current) (unsettled : t.unsettled current.id)
    (agree : retryable → current.attempts < 4 → again) : Ledger (markItemFailure current retryable t) ∧ Logged (markItemFailure current retryable t) cache ∧
      Trying (markItemFailure current retryable t) cache a ∧ Over (markItemFailure current retryable t) a (!again) ∧
      Kept t (markItemFailure current retryable t) := by
  have every := unsettled_all unsettled
  obtain ⟨item,mem,here⟩ := trying.row
  have items : (markItemFailure current retryable t).items = (t.mark a.item.id (failureStatus current retryable)).items := by
    rw [markItemFailure_items,own.1]
  have tried (other) (there : other ∈ t.items) (here : other.id = a.item.id) : a.number + 1 ≤ other.attempts :=
    trying.running other there here
      (running_of_own ledger counting taken there here (every other there (here.trans own.1.symm)))
  have stops : failureStatus current retryable ≠ .running := by
    rcases failureStatus_cases current retryable with ends | ⟨again,_,_⟩
    · rw [ends]; nofun
    rw [again]; nofun
  refine ⟨markItemFailure_ledger ledger (fun row there same => own.2.2 row there (same.trans own.1)) counting mem (here.trans own.1.symm)
    (every item mem (here.trans own.1.symm)),?_,?_,?_,markItemFailure_kept every⟩
  · refine recorded.amend items (fun queued => markItemFailure_status.symm.trans queued) (fun _ => rfl) fun old there at' _ => ?_
    exact ⟨unsettled_unfinished ledger counting there (every old there (at'.trans own.1.symm)),Nat.le_refl _⟩
  · exact trying.mark items stops fun _ other there at' => Nat.le_of_succ_le (tried other there at')
  refine mark_over items stops fun waits => ?_
  rcases failureStatus_cases current retryable with ends | ⟨_,retries,few⟩
  · rw [ends] at waits; cases waits
  exact ⟨by rw [agree retries few]; rfl,tried⟩

theorem row_own (ledger : Ledger t) (trying : Trying t cache a) (found : t.row a.item.id = some current) : Own t a current := by
  obtain ⟨mem,here⟩ := find_some found
  exact ⟨here,trying.source current mem here,fun item there same => by rw [ledger.keyed.unique there mem (same.trans here.symm)]⟩

theorem Trying.further (trying : Trying t cache a) (settled : Over t a false) :
    Trying t { cache with transfers := ((a.item.ordinal,a.number),false) :: cache.transfers } { a with number := a.number + 1 } where
  row := trying.row
  ordinal := trying.ordinal
  source := trying.source
  waiting item mem here waits := ((settled item mem here).2 waits).2
  running item mem here runs := absurd runs (settled item mem here).1
  listed := trying.listed
  keyed := trying.keyed
  ahead := trying.ahead
  uncached entry cached same := by
    rcases mem_cons.mp cached with rfl | before
    · exact Nat.lt_succ_self _
    exact Nat.lt_succ_of_lt (trying.uncached entry before same)

theorem Logged.further (ledger : Ledger t) (recorded : Logged t cache) (counting : t.job.status.counting)
    (trying : Trying t cache a) (settled : Over t a terminal) :
    Logged t { cache with transfers := ((a.item.ordinal,a.number),terminal) :: cache.transfers } := by
  refine ⟨fun entry cached item mem same unfinished => ?_,fun queued => by rw [queued] at counting; cases counting⟩
  rcases mem_cons.mp cached with rfl | before
  · obtain ⟨own,there,here⟩ := trying.row
    have at' : item.id = a.item.id := by
      rw [ledger.ordinals.unique mem there (same.trans (trying.ordinal own there here).symm)]
      exact here
    have done := settled item mem at'
    have waits : item.status.waiting := by
      simpa [ItemStatus.unfinished,done.1] using unfinished
    exact (done.2 waits).2
  exact recorded.below entry before item mem same unfinished

theorem enterPersist_fits : Fits t cache (enterPersist cache sources : Pc σ π ε) := by
  unfold enterPersist
  split <;> trivial

theorem enterSnapshot_fits : Fits t cache (enterSnapshot cache : Pc σ π ε) := by
  unfold enterSnapshot
  split
  · exact enterPersist_fits
  trivial

theorem finalizeItems_idle : ∀ item ∈ finalizeItems t, item.status.waiting = false := by
  intro _ mem
  obtain ⟨old,_,rfl⟩ := mem_map.mp mem
  have finished := closeItem_finishes old
  simp only [ItemStatus.unfinished,Bool.or_eq_false_iff] at finished
  exact finished.1

theorem finalStatus_closes (job : Job) (cancelled : Bool) : (finalStatus job cancelled).open' = false := by
  unfold finalStatus
  split
  · rfl
  split
  · split <;> rfl
  rfl

theorem finalStatus_completed (verdict : finalStatus job cancelled = .completed) : cancelled = false ∧ job.failed = 0 := by
  unfold finalStatus at verdict
  split at verdict
  · cases verdict
  rename_i open'
  refine ⟨Bool.eq_false_iff.mpr open',?_⟩
  split at verdict
  · split at verdict <;> cases verdict
  omega

theorem verdict_sound (recounts : Bool) (sound : Sound t cache (.verdict status : Pc σ π ε))
    (spare : status = .completed → ∀ item ∈ t.items, item.status ≠ .running) :
    Ledger (finalizeJob recounts status t) ∧ Logged (finalizeJob recounts status t) cache ∧ Done (finalizeJob recounts status t) := by
  obtain ⟨_,closes,settled⟩ := sound.fits
  refine ⟨finalizeJob_ledger sound.ledger closes fun completed isOpen item mem => ?_,⟨?_,?_⟩,.inr finalizeItems_idle⟩
  · have idle := settled completed item mem
    have cancelled := sound.ledger.cancelled isOpen item mem
    have still := spare completed item mem
    revert idle cancelled still
    cases item.status <;> simp [ItemStatus.waiting,ItemStatus.succeeded]
  · intro _ _ _ mem _ unfinished
    obtain ⟨old,_,rfl⟩ := mem_map.mp mem
    have finished := closeItem_finishes old
    exact absurd unfinished (Bool.eq_false_iff.mp finished)
  intro queued
  unfold finalizeJob at queued
  split at queued
  · change status = .queued at queued
    rw [queued] at closes; cases closes
  exact sound.recorded.early queued

theorem failJob_queued (queued : (failJob t).job.status = .queued) : t.job.status = .queued := by
  unfold failJob at queued
  split at queued
  · cases queued
  exact queued

theorem throws_fits (fits : Fits t cache pc) : Fits t cache pc.throws := by
  cases pc with
  | mark | finalize | revoke | thrown => exact fits
  | reread | work | result | failure => exact ⟨fits.1,fits.2.1⟩
  | judge | verdict => exact fits.1
  | settled outcome =>
    cases outcome with
    | snapshot | persist => trivial
    | transfer => exact ⟨fits.1,fits.2.1⟩
    | finalize => exact fits
  | retry | renew | reopen | create | answered => exact fits.elim
  | _ => trivial

section
variable (sound : Sound t cache pc)
include sound

theorem Sound.throws : Sound t cache pc.throws := sound.at (throws_fits sound.fits)

theorem call_sound (spare : reply.effective → pc.spared mover t)
    (ran : pc.call options mover cache t reply = some (u,after)) : Sound u cache after ∧ Kept t u := by
  have ledger := sound.ledger
  have recorded := sound.recorded
  have fits := sound.fits
  cases pc with
  | start =>
    refine read_sound sound.throws (sound.at ?_) ran
    split
    · split
      · trivial
      · exact enterSnapshot_fits
    trivial
  | credential listing =>
    refine read_sound sound.throws (sound.at ?_) ran
    cases listing
    · exact enterSnapshot_fits
    · exact fits
  | snapshot =>
    cases reply with
    | sources => cases ran; exact ⟨sound.at trivial,Kept.refl _⟩
    | failed => cases ran; exact ⟨sound.throws,Kept.refl _⟩
    | ok | active _ | moved _ => cases ran
  | persist =>
    refine statement_sound sound.throws (fun effective => ?_) ran
    obtain ⟨kept,logged,still⟩ := replaceItems_sound sound (of_decide_eq_true (spare effective))
    exact ⟨⟨kept,logged,trivial⟩,⟨kept,logged,trivial⟩,still⟩
  | resume =>
    refine read_sound sound.throws (sound.at ?_) ran
    split
    · rename_i counting
      split <;> exact counting
    trivial
  | list =>
    exact read_sound sound.throws (sound.at (visit_fits fits ⟨fun row there => there,ledger.keyed,fun item mem _ => ⟨item,mem,rfl⟩⟩ ledger.keyed)) ran
  | check =>
    obtain ⟨counting,waits,loop⟩ := fits
    refine read_sound sound.throws (sound.at ?_) ran
    split
    · exact counting
    split
    · exact ⟨counting,waits,loop⟩
    exact enterAttempt_fits ledger counting (loop.enter ledger recorded waits)
  | share =>
    obtain ⟨counting,waits,loop⟩ := fits
    cases reply with
    | active =>
      cases ran
      refine ⟨sound.at ?_,Kept.refl _⟩
      split
      · exact enterAttempt_fits ledger counting (loop.enter ledger recorded waits)
      exact counting
    | failed => cases ran; exact ⟨sound.throws,Kept.refl _⟩
    | ok | sources _ | moved _ => cases ran
  | stop =>
    refine statement_sound sound.throws (fun _ => ?_) ran
    have kept := stopJob_ledger ledger fits
    have logged : Logged (stopJob t) cache := recorded.items rfl nofun
    exact ⟨⟨kept,logged,enterFinalize_fits (.inl rfl)⟩,⟨kept,logged,trivial⟩,Kept.of_items rfl⟩
  | mark =>
    obtain ⟨counting,trying⟩ := fits
    refine statement_sound sound.throws (fun _ => ?_) ran
    obtain ⟨kept,logged,still,taken⟩ := mark_sound ledger recorded trying
    exact ⟨⟨kept,logged,counting,still,taken⟩,⟨kept,logged,counting,still⟩,markItemRunning_kept⟩
  | reread attempt =>
    obtain ⟨counting,trying,taken⟩ := fits
    refine read_sound sound.throws (sound.at ?_) ran
    split
    · rename_i current found
      exact ⟨counting,trying,taken,row_own ledger trying found⟩
    exact ⟨counting,trying⟩
  | work | settled | thrown | ended => cases ran
  | result attempt current =>
    obtain ⟨counting,trying,taken,own⟩ := fits
    have handler (error : δ) : Sound t cache (.failure attempt current (mover.fault error)) := sound.at ⟨counting,trying,taken,own⟩
    cases reply with
    | ok =>
      cases ran
      obtain ⟨kept,logged,still,settled,same⟩ := result_sound ledger recorded counting trying own (spare rfl)
      exact ⟨⟨kept,logged,markItemResult_counting counting,still,settled⟩,same⟩
    | failed committed error =>
      cases committed with
      | true =>
        cases ran
        obtain ⟨kept,logged,still,settled,same⟩ := result_sound ledger recorded counting trying own (spare rfl)
        exact ⟨⟨kept,logged,markItemResult_counting counting,still,over_taken settled,markItemResult_own own⟩,same⟩
      | false => cases ran; exact ⟨handler error,Kept.refl _⟩
    | _ => cases ran
  | failure _ current error =>
    obtain ⟨counting,trying,taken,own⟩ := fits
    refine statement_sound sound.throws (fun effective => ?_) ran
    have both := Bool.and_eq_true_iff.mp (spare effective)
    have agree : mover.retryable error → current.attempts < 4 → mover.again error := by
      intro retries few
      simpa [retries,few] using both.2
    obtain ⟨kept,logged,still,settled,same⟩ := failure_sound ledger recorded counting trying taken own both.1 agree
    have counts : (markItemFailure current (mover.retryable error) t).job.status.counting := by
      rw [markItemFailure_status]; exact counting
    exact ⟨⟨kept,logged,counts,still,settled⟩,⟨kept,logged,counts,still⟩,same⟩
  | wait =>
    obtain ⟨counting,trying⟩ := fits
    exact read_sound sound.throws (sound.at (enterAttempt_fits ledger counting trying)) ran
  | finalize =>
    refine read_sound sound.throws (sound.at ?_) ran
    exact ⟨fits,rfl⟩
  | judge =>
    obtain ⟨done,same⟩ := fits
    refine read_sound sound.throws (sound.at ?_) ran
    refine ⟨done,finalStatus_closes _ _,fun verdict item mem => ?_⟩
    obtain ⟨calm,none⟩ := finalStatus_completed verdict
    refine ⟨?_,failed_of_none ledger (same.symm.trans none) item mem⟩
    rcases done with requested | idle
    · simp [Tables.jobCancelled,requested] at calm
    exact idle item mem
  | verdict status =>
    refine statement_sound sound.throws (fun effective => ?_) ran
    have running : status = .completed → ∀ item ∈ t.items, item.status ≠ .running := by
      intro completed item mem
      have spared : (decide (status ≠ .completed) || t.items.all fun item => decide (item.status ≠ .running)) := spare effective
      simp only [completed,ne_eq,not_true,decide_false,Bool.false_or] at spared
      exact of_decide_eq_true (all_eq_true.mp spared item mem)
    obtain ⟨kept,logged,done⟩ := verdict_sound options.recounts sound running
    refine ⟨⟨kept,logged,?_⟩,⟨kept,logged,done⟩,finalizeJob_kept⟩
    split <;> exact done
  | revoke => refine read_sound (sound.at ?_) (sound.at ?_) ran <;> exact fits
  | caught =>
    refine statement_sound sound.throws (fun _ => ?_) ran
    have logged : Logged (failJob t) cache := recorded.items rfl failJob_queued
    exact ⟨⟨failJob_ledger ledger,logged,trivial⟩,⟨failJob_ledger ledger,logged,trivial⟩,Kept.of_items rfl⟩
  | _ => exact fits.elim

theorem moved_sound (ran : pc.moved mover cancelled store reply = some (changed,after)) : Sound t cache after := by
  unfold Pc.moved at ran
  split at ran
  · rename_i attempt current place answer
    obtain ⟨step,_,same⟩ := map_eq_some_iff.mp ran
    obtain ⟨_,rfl⟩ := Prod.mk.inj same
    refine sound.at ?_
    cases step.2 <;> exact sound.fits
  cases ran

theorem enter_fits (inside : pc.body = some body) : Fits t cache (body.enter : Pc σ π ε) := by
  have fits := sound.fits
  cases pc with
  | snapshot | persist => cases inside; trivial
  | mark | finalize | revoke => cases inside; exact fits
  | reread | work | result | failure => cases inside; exact ⟨fits.1,fits.2.1⟩
  | judge | verdict => cases inside; exact fits.1
  | settled outcome =>
    cases inside
    cases outcome with
    | snapshot | persist => trivial
    | transfer => exact ⟨fits.1,fits.2.1⟩
    | finalize => exact fits
  | thrown body =>
    cases inside
    cases body <;> exact fits
  | _ =>
    cases inside
end

theorem keep_sound (sound : Sound t cache (.settled outcome : Pc σ π ε)) : Sound t (outcome.keep cache) (outcome.proceed (outcome.keep cache) : Pc σ π ε) := by
  obtain ⟨ledger,recorded,fits⟩ := sound
  cases outcome with
  | snapshot => exact ⟨ledger,⟨recorded.below,recorded.early⟩,enterPersist_fits⟩
  | persist | finalize => exact ⟨ledger,⟨recorded.below,recorded.early⟩,trivial⟩
  | transfer _ terminal =>
    obtain ⟨counting,trying,settled⟩ := fits
    refine ⟨ledger,recorded.further ledger counting trying settled,?_⟩
    cases terminal with
    | true => exact visit_fits counting (trying.leave (over_taken settled)) ledger.keyed
    | false => exact ⟨counting,trying.further settled⟩

theorem requestCancellation_job : (requestCancellation t).job.failed = t.job.failed ∧
    (t.job.status.counting → (requestCancellation t).job.status.counting) ∧ ((requestCancellation t).job.status = .queued → t.job.status = .queued) ∧
    (t.job.cancelRequested → (requestCancellation t).job.cancelRequested) := by
  unfold requestCancellation
  split
  · exact ⟨rfl,fun _ => rfl,nofun,fun _ => rfl⟩
  exact ⟨rfl,id,id,id⟩

theorem Trying.items (trying : Trying t cache a) (same : u.items = t.items) : Trying u cache a :=
  ⟨same ▸ trying.row,same ▸ trying.ordinal,same ▸ trying.source,same ▸ trying.waiting,same ▸ trying.running,same ▸ trying.listed,trying.keyed,
    same ▸ trying.ahead,trying.uncached⟩

theorem Loop.items (loop : Loop t rows) (same : u.items = t.items) : Loop u rows :=
  ⟨same ▸ loop.listed,loop.keyed,same ▸ loop.ahead⟩

theorem cancel_sound (sound : Sound t cache pc) : Sound (requestCancellation t) cache pc := by
  obtain ⟨ledger,recorded,fits⟩ := sound
  obtain ⟨failed,counting,queued,requested⟩ := requestCancellation_job (t := t)
  have same : (requestCancellation t).items = t.items := rfl
  refine ⟨requestCancellation_ledger ledger,recorded.items same queued,?_⟩
  cases pc with
  | credential listing =>
    cases listing
    · trivial
    · exact counting fits
  | list | stop => exact counting fits
  | check | share => exact ⟨counting fits.1,fits.2.1,fits.2.2.items same⟩
  | mark | wait => exact ⟨counting fits.1,fits.2.items same⟩
  | reread | work | result | failure => exact ⟨counting fits.1,fits.2.1.items same,fits.2.2⟩
  | finalize | revoke => exact fits.items same requested
  | judge => exact ⟨fits.1.items same requested,fits.2.trans failed.symm⟩
  | verdict => exact ⟨fits.1.items same requested,fits.2⟩
  | settled outcome =>
    cases outcome with
    | snapshot | persist => trivial
    | transfer => exact ⟨counting fits.1,fits.2.1.items same,fits.2.2⟩
    | finalize => exact fits.items same requested
  | thrown body =>
    cases body with
    | snapshot | persist => trivial
    | transfer => exact ⟨counting fits.1,fits.2.items same⟩
    | finalize => exact fits.items same requested
  | retry | renew | reopen | create | answered => exact fits.elim
  | _ => trivial
end

variable {σ ω π ε δ ρ χ : Type} {options : Options} {mover : Mover σ ω π ε δ ρ χ} {w v : World σ ω π ε} {action : Action σ δ ρ χ} {t u : Tables σ} {cache : Cache σ} {pc after : Pc σ π ε} {reply : Reply σ δ ρ}

def Pc.idleRequest : Pc σ π ε → Bool
  | .retry | .renew | .answered => true
  | _ => false

structure Single (holds : Tables σ → ω → Pc σ π ε → Prop) (w : World σ ω π ε) : Prop where
  flows : ∃ flow rest, w.flows = flow :: rest ∧ Sound w.tables flow.cache flow.pc ∧ holds w.tables w.store flow.pc ∧
    ∀ other ∈ rest, other.pc.idleRequest = true

structure Carried (options : Options) (mover : Mover σ ω π ε δ ρ χ) (holds : Tables σ → ω → Pc σ π ε → Prop) : Prop where
  call : ∀ {t u cache s} {pc after : Pc σ π ε} {reply : Reply σ δ ρ}, Sound t cache pc → (reply.effective = true → pc.spared mover t = true) →
    holds t s pc → pc.call options mover cache t reply = some (u,after) → holds u s after
  moved : ∀ {t cache s s'} {pc after : Pc σ π ε} {reply : Reply σ δ ρ}, Sound t cache pc → holds t s pc →
    pc.moved mover t.jobCancelled s reply = some (s',after) → holds t s' after
  again : ∀ {t cache s body} {pc : Pc σ π ε}, Sound t cache pc → holds t s pc → pc.body = some body → holds t s body.enter
  record : ∀ {t cache s} {outcome : Settled σ}, Sound t cache (.settled outcome : Pc σ π ε) → holds t s (.settled outcome) →
    holds t s (outcome.proceed (outcome.keep cache))
  caught : ∀ {t s} {pc : Pc σ π ε}, holds t s pc → holds t s .caught
  start : ∀ {t s} {pc : Pc σ π ε}, holds t s pc → holds t s .start
  cancel : ∀ {t s} {pc : Pc σ π ε}, holds t s pc → holds (requestCancellation t) s pc
  others : ∀ {t s} {pc : Pc σ π ε} (change : χ), holds t s pc → holds t (mover.others s change) pc

theorem Carried.nothing : Carried options mover (fun _ _ _ => True) where
  call _ _ _ _ := trivial
  moved _ _ _ := trivial
  again _ _ _ := trivial
  record _ _ := trivial
  caught _ := trivial
  start _ := trivial
  cancel _ := trivial
  others _ _ := trivial

theorem Single.ledger (single : Single holds w) : Ledger w.tables := by
  obtain ⟨_,_,_,sound,_⟩ := single.flows
  exact sound.ledger

theorem initial_single (store : ω)
    (starts : holds { job := { status := .queued }, items := [], ids := 0 } store .start) :
    Single holds (initial store : World σ ω π ε) := by
  refine ⟨⟨_,_,rfl,⟨⟨?_,?_,fun _ => rfl,rfl,rfl,Nat.le_refl 0,rfl,?_,?_,?_⟩,⟨?_,fun _ => rfl⟩,trivial⟩,starts,?_⟩⟩
  · exact nodup_nil
  · exact nodup_nil
  · exact forall_mem_nil _
  · exact fun _ => forall_mem_nil _
  · exact fun _ => forall_mem_nil _
  · intro _ cached
    cases cached
  exact forall_mem_nil _

theorem statement_cases (ran : statement effect goes escape t reply = some (u,after)) :
    (reply.effective ∧ u = effect t ∧ (after = goes ∨ after = escape)) ∨ (u = t ∧ after = escape) := by
  cases reply with
  | ok => cases ran; exact .inl ⟨rfl,rfl,.inl rfl⟩
  | failed committed =>
    cases committed with
    | true => cases ran; exact .inl ⟨rfl,rfl,.inr rfl⟩
    | false => cases ran; exact .inr ⟨rfl,rfl⟩
  | _ => cases ran

theorem request_call (ledger : Ledger t) (idle : pc.idleRequest) (spare : reply.effective → pc.spared mover t)
    (ran : pc.call options mover cache t reply = some (u,after)) : u = t ∧ after.idleRequest := by
  cases pc with
  | retry =>
    rcases statement_cases ran with ⟨_,rfl,rfl | rfl⟩ | ⟨rfl,rfl⟩
    · refine ⟨rfl,?_⟩
      split <;> rfl
    · exact ⟨rfl,rfl⟩
    exact ⟨rfl,rfl⟩
  | renew =>
    rcases statement_cases ran with ⟨effective,rfl,goes⟩ | ⟨rfl,rfl⟩
    · have none : t.job.failed = 0 := of_decide_eq_true (spare effective)
      have quiet : t.items.any (·.status = .failed) = false := by
        refine any_eq_false.mpr fun item mem => ?_
        simpa using failed_of_none ledger none item mem
      rw [quiet] at goes
      refine ⟨renewItems_idle ledger none,?_⟩
      rcases goes with rfl | rfl <;> rfl
    exact ⟨rfl,rfl⟩
  | answered => cases ran
  | _ => cases idle

theorem request_moved (idle : pc.idleRequest) (ran : pc.moved mover cancelled store reply = some (changed,after)) : False := by
  cases pc with
  | work => cases idle
  | _ => cases ran

theorem request_body (idle : pc.idleRequest) : pc.body = none ∧ pc.request := by
  cases pc with
  | retry | renew | answered => exact ⟨rfl,rfl⟩
  | _ => cases idle

theorem request_created (idle : pc.idleRequest) : pc.created reply = [] := by
  cases pc with
  | create => cases idle
  | _ => rfl

theorem flow_created (sound : Sound t cache pc) : pc.created reply = [] := by
  cases pc with
  | create => exact sound.fits.elim
  | _ => rfl

theorem idle_set {rest : List (Flow σ π ε)} (each : ∀ other ∈ rest, other.pc.idleRequest)
    (idle : flow.pc.idleRequest) : ∀ other ∈ rest.set index flow, other.pc.idleRequest := by
  intro other mem
  rcases mem_or_eq_of_mem_set mem with old | rfl
  · exact each other old
  exact idle

theorem replied_single {holds : Tables σ → ω → Pc σ π ε → Prop}
    (carried : Carried options mover holds) (single : Single holds w) (found : w.flows[index]? = some flow)
    (spare : reply.effective → flow.pc.spared mover w.tables) (ran : replied options mover w index flow reply = some v) :
    Single holds v ∧ Kept w.tables v.tables := by
  obtain ⟨workflow,rest,flows,sound,extra,idle⟩ := single.flows
  unfold replied at ran
  cases index with
  | zero =>
    rw [flows] at found
    cases found
    split at ran
    · rename_i tables pc called
      obtain ⟨further,kept⟩ := call_sound sound spare called
      cases ran
      refine ⟨⟨{ flow with pc := pc },rest,?_,further,carried.call sound spare extra called,idle⟩,kept⟩
      rw [flow_created sound,flows,append_nil]; rfl
    obtain ⟨step,called,rfl⟩ := map_eq_some_iff.mp ran
    refine ⟨⟨{ flow with pc := step.2 },rest,?_,moved_sound sound called,carried.moved sound extra called,idle⟩,Kept.refl _⟩
    rw [flows]; rfl
  | succ index =>
    have mem : flow ∈ rest := by
      rw [flows] at found
      exact mem_of_getElem? found
    have own := idle flow mem
    split at ran
    · rename_i tables pc called
      obtain ⟨rfl,still⟩ := request_call sound.ledger own spare called
      cases ran
      refine ⟨⟨workflow,rest.set index { flow with pc := pc },?_,sound,extra,idle_set idle still⟩,Kept.refl _⟩
      rw [request_created own,flows,append_nil]; rfl
    obtain ⟨_,called,_⟩ := map_eq_some_iff.mp ran
    exact (request_moved own called).elim

theorem spared_reply (found : w.flows[index]? = some flow) (spare : spared mover w (.reply index reply)) : reply.effective → flow.pc.spared mover w.tables := by
  intro effective
  have both : (!reply.effective || flow.pc.spared mover w.tables) := by
    simpa [spared,found] using spare
  simpa [effective] using both

theorem next_single (carried : Carried options mover holds) (single : Single holds w) (spare : spared mover w action) (ran : next options mover w action = some v) :
    Single holds v ∧ Kept w.tables v.tables := by
  obtain ⟨workflow,rest,flows,sound,extra,idle⟩ := single.flows
  -- The engine moves the workflow only; a request has no body and cannot be restarted.
  have request {index : Nat} {flow : Flow σ π ε} (found : w.flows[index+1]? = some flow) : flow.pc.idleRequest := by
    rw [flows] at found
    exact idle flow (mem_of_getElem? found)
  have own {flow : Flow σ π ε} (found : w.flows[0]? = some flow) : flow = workflow := by
    rw [flows] at found
    exact (Option.some.inj found).symm
  cases action with
  | reply =>
    obtain ⟨_,found,called⟩ := bind_eq_some_iff.mp ran
    exact replied_single carried single found (spared_reply found spare) called
  | record index =>
    obtain ⟨flow,found,settles⟩ := bind_eq_some_iff.mp ran
    split at settles
    · rename_i outcome settled
      cases settles
      cases index with
      | zero =>
        cases own found
        obtain ⟨_,cache⟩ := workflow
        cases settled
        refine ⟨⟨⟨outcome.proceed (outcome.keep cache),outcome.keep cache⟩,rest,?_,keep_sound sound,carried.record sound extra,idle⟩,Kept.refl _⟩
        simp only [World.put,flows]; rfl
      | succ =>
        have quiet := request found
        rw [settled] at quiet; cases quiet
    cases settles
  | again index =>
    obtain ⟨_,found,executes⟩ := bind_eq_some_iff.mp ran
    obtain ⟨body,inside,rfl⟩ := map_eq_some_iff.mp executes
    cases index with
    | zero =>
      cases own found
      refine ⟨⟨{ workflow with pc := body.enter },rest,?_,sound.at (enter_fits sound inside),carried.again sound extra inside,idle⟩,Kept.refl _⟩
      simp only [World.put,flows]; rfl
    | succ =>
      rw [(request_body (request found)).1] at inside
      cases inside
  | giveUp index =>
    obtain ⟨flow,found,gives⟩ := bind_eq_some_iff.mp ran
    split at gives
    · rename_i body thrown
      cases gives
      cases index with
      | zero =>
        cases own found
        refine ⟨⟨{ workflow with pc := .caught },rest,?_,sound.at trivial,carried.caught extra,idle⟩,Kept.refl _⟩
        simp only [World.put,flows]; rfl
      | succ =>
        have quiet := request found
        rw [thrown] at quiet; cases quiet
    cases gives
  | restart index =>
    obtain ⟨flow,found,starts⟩ := bind_eq_some_iff.mp ran
    obtain ⟨workflows,same⟩ := Option.ite_none_left_eq_some.mp starts
    cases same
    cases index with
    | zero =>
      cases own found
      refine ⟨⟨{ workflow with pc := .start },rest,?_,sound.at trivial,carried.start extra,idle⟩,Kept.refl _⟩
      simp only [World.put,flows]; rfl
    | succ => exact absurd (request_body (request found)).2 workflows
  | cancel =>
    cases ran
    exact ⟨⟨workflow,rest,flows,cancel_sound sound,carried.cancel extra,idle⟩,Kept.of_items rfl⟩
  | retry =>
    obtain ⟨_,same⟩ := Option.ite_none_right_eq_some.mp ran
    cases same
    refine ⟨⟨workflow,rest++[{ pc := .retry }],by rw [flows]; rfl,sound,extra,fun other mem => ?_⟩,Kept.refl _⟩
    rcases mem_append.mp mem with old | new
    · exact idle other old
    cases mem_singleton.mp new; rfl
  | others change =>
    cases ran
    exact ⟨⟨workflow,rest,flows,sound,carried.others change extra,idle⟩,Kept.refl _⟩

abbrev SparedStep (options : Options) (mover : Mover σ ω π ε δ ρ χ) : World σ ω π ε → Action σ δ ρ χ → World σ ω π ε → Prop :=
  Guarded (fun w action v => next options mover w action = some v) fun w action => spared mover w action = true

theorem run_single (carried : Carried options mover holds)
    (starts : holds { job := { status := .queued }, items := [], ids := 0 } store .start)
    (run : Runs (SparedStep options mover) (initial store) actions w) : Single holds w :=
  run.preserves (Single holds) (fun _ _ _ single taken => (next_single carried single taken.2 taken.1).1) (initial_single store starts)
end LedgeTopOps.FileTransfers
