import LedgeTopOps.FileTransfers

namespace LedgeTopOps.FileTransfers
open List KeyedRows Function

structure Truthful (t : Tables σ) : Prop where
  succeeded : t.job.succeeded ≤ t.items.countP (·.status.succeeded)
  failed : t.job.failed ≤ t.items.countP (·.status = .failed)
  processed : t.job.processed ≤ t.job.fileCount
  completed : t.job.status = .completed → ∀ item ∈ t.items, item.status.succeeded = true

def Kept (t next : Tables σ) : Prop :=
  ∀ item ∈ t.items, item.status.succeeded = true → ∃ later ∈ next.items, later.id = item.id ∧ later.status = item.status

-- The counting invariant: the counters are the counts.
structure Ledger (t : Tables σ) : Prop where
  keyed : Keyed Item.id t.items
  ordinals : Keyed Item.ordinal t.items
  queued : t.job.status = .queued → t.items = []
  succeeded : t.job.succeeded = t.items.countP (·.status.succeeded)
  failed : t.job.failed = t.items.countP (·.status = .failed)
  processed : t.job.processed ≤ t.items.countP (·.status.closed)
  files : t.items.length = t.job.fileCount
  attempts : ∀ item ∈ t.items, item.status.waiting = true → item.attempts < 4
  cancelled : t.job.status.open' = true → ∀ item ∈ t.items, item.status ≠ .cancelled
  completed : t.job.status = .completed → ∀ item ∈ t.items, item.status.succeeded = true

variable {σ : Type} {t : Tables σ} {item row current : Item σ} {id : Nat}
  {status : JobStatus}

theorem Ledger.truthful (ledger : Ledger t) : Truthful t where
  succeeded := Nat.le_of_eq ledger.succeeded
  failed := Nat.le_of_eq ledger.failed
  processed := ledger.files ▸ Nat.le_trans ledger.processed countP_le_length
  completed := ledger.completed

theorem Kept.refl (t : Tables σ) : Kept t t := fun item mem _ => ⟨item,mem,rfl,rfl⟩
theorem Kept.of_items {next} (same : next.items = t.items) : Kept t next := fun item mem _ => ⟨item,same ▸ mem,rfl,rfl⟩

theorem settled_succeeded {status : ItemStatus} (unsettled : status.settled = false) : status.succeeded = false := by
  cases status <;> first | rfl | cases unsettled

theorem failed_of_none (ledger : Ledger t) (none : t.job.failed = 0) : ∀ item ∈ t.items, item.status ≠ .failed := by
  intro item mem isFailed
  have counted := ledger.failed.symm.trans none
  have positive : 0 < t.items.countP (·.status = .failed) := countP_pos_iff.mpr ⟨item,mem,by simp [isFailed]⟩
  omega

theorem requestCancellation_ledger (ledger : Ledger t) : Ledger (requestCancellation t) := by
  obtain ⟨keyed,ordinals,queued,succeeded,failed,processed,files,attempts,cancelled,completed⟩ := ledger
  unfold requestCancellation
  by_cases isOpen : t.job.status.open'
  · simp only [if_pos isOpen]
    exact ⟨keyed,ordinals,nofun,succeeded,failed,processed,files,attempts,fun _ => cancelled isOpen,nofun⟩
  simp only [if_neg isOpen]
  exact ⟨keyed,ordinals,queued,succeeded,failed,processed,files,attempts,cancelled,completed⟩

theorem counting_open (counting : status.counting) : status.open' := by
  cases status <;> first | rfl | cases counting

theorem stopJob_ledger (ledger : Ledger t) (counting : t.job.status.counting) : Ledger (stopJob t) := by
  obtain ⟨keyed,ordinals,_,succeeded,failed,processed,files,attempts,cancelled,_⟩ := ledger
  exact ⟨keyed,ordinals,nofun,succeeded,failed,processed,files,attempts,fun _ => cancelled (counting_open counting),nofun⟩

theorem failJob_ledger (ledger : Ledger t) : Ledger (failJob t) := by
  obtain ⟨keyed,ordinals,queued,succeeded,failed,processed,files,attempts,cancelled,completed⟩ := ledger
  unfold failJob
  split
  · exact ⟨keyed,ordinals,nofun,succeeded,failed,processed,files,attempts,nofun,nofun⟩
  exact ⟨keyed,ordinals,queued,succeeded,failed,processed,files,attempts,cancelled,completed⟩

theorem renewItems_idle (ledger : Ledger t) (none : t.job.failed = 0) : renewItems t = t := by
  have same : t.items.map (fun item => if item.status = .failed then { item with status := .retrying, attempts := 0 } else item) = t.items := by
    conv_rhs => rw [←map_id t.items]
    exact map_congr_left fun item mem => if_neg (failed_of_none ledger none item mem)
  unfold renewItems
  rw [same]

theorem replaceItems_mem : row ∈ (replaceItems sources t).items → ∃ source ordinal, row = ⟨t.ids + ordinal,ordinal,source,.queued,0⟩ := by
  intro mem
  obtain ⟨⟨source,ordinal⟩,_,rfl⟩ := mem_map.mp mem
  exact ⟨source,ordinal,rfl⟩

theorem zipIdx_nodup (sources : List σ) (shift : Nat → Nat) (one : Injective shift) :
    ((sources.zipIdx.map fun (source,ordinal) => (⟨shift ordinal,ordinal,source,.queued,0⟩ : Item σ)).map Item.id).Nodup := by
  rw [map_map]
  have ids : (Item.id ∘ fun ((source,ordinal) : σ × Nat) => (⟨shift ordinal,ordinal,source,.queued,0⟩ : Item σ)) = shift ∘ Prod.snd := rfl
  rw [ids,←map_map,zipIdx_map_snd]
  exact (nodup_range').map one

theorem zipIdx_ordinals (sources : List σ) (shift : Nat → Nat) :
    ((sources.zipIdx.map fun (source,ordinal) => (⟨shift ordinal,ordinal,source,.queued,0⟩ : Item σ)).map Item.ordinal).Nodup := by
  rw [map_map]
  have ordinals : (Item.ordinal ∘ fun ((source,ordinal) : σ × Nat) => (⟨shift ordinal,ordinal,source,.queued,0⟩ : Item σ)) = Prod.snd := rfl
  rw [ordinals,zipIdx_map_snd]
  exact nodup_range'

theorem countP_none {rows : List (Item σ)} (never : ∀ row ∈ rows, counted row = false) : rows.countP counted = 0 :=
  countP_eq_zero.mpr fun row mem => by simp [never row mem]

theorem replaceItems_ledger (queued : t.job.status = .queued) : Ledger (replaceItems sources t) := by
  have job : (replaceItems sources t).job =
      { t.job with status := .running, fileCount := sources.length, processed := 0, succeeded := 0, failed := 0 } := if_pos queued
  have fresh : ∀ row ∈ (replaceItems sources t).items, row.status = .queued ∧ row.attempts = 0 := by
    intro _ mem
    obtain ⟨_,_,rfl⟩ := replaceItems_mem mem
    exact ⟨rfl,rfl⟩
  refine ⟨zipIdx_nodup sources (t.ids + ·) fun a b same => Nat.add_left_cancel same,zipIdx_ordinals sources (t.ids + ·),?_,?_,?_,?_,?_,?_,?_,?_⟩
  · rw [job]; nofun
  · rw [job,countP_none fun row mem => by rw [(fresh row mem).1]; rfl]
  · rw [job,countP_none fun row mem => by rw [(fresh row mem).1]; rfl]
  · rw [job]; exact Nat.zero_le _
  · rw [job]; simp [replaceItems]
  · intro row mem _
    rw [(fresh row mem).2]; decide
  · intro _ row mem isCancelled
    rw [(fresh row mem).1] at isCancelled; cases isCancelled
  rw [job]; nofun

theorem countP_amend_same (same : ∀ row ∈ t.items, row.id = id → counted (change row) = counted row) :
    (t.amend id change).items.countP counted = t.items.countP counted := by
  simp only [Tables.amend,KeyedRows.amend,countP_map]
  refine countP_congr fun row mem => ?_
  by_cases here : row.id = id
  · simp [here,same row mem here]
  simp [here]

theorem amend_keyed (keyed : Keyed Item.id t.items) (kept : ∀ row, (change row).id = row.id) : Keyed Item.id (t.amend id change).items :=
  keyed.amend change fun row _ _ => kept row

theorem amend_ordinals (ordinals : Keyed Item.ordinal t.items) (kept : ∀ row, (change row).ordinal = row.ordinal) :
    Keyed Item.ordinal (t.amend id change).items := by
  have same := amend_map Item.id t.items id Item.ordinal change fun row _ _ => kept row
  rw [Keyed,show (t.amend id change).items.map Item.ordinal = t.items.map Item.ordinal from same]
  exact ordinals

def startAttempt (item : Item σ) : Item σ :=
  if item.status.waiting then { item with status := .running, attempts := item.attempts + 1 } else item

theorem markItemRunning_eq : markItemRunning id t = t.amend id startAttempt := rfl

theorem startAttempt_id : (startAttempt item).id = item.id := by
  unfold startAttempt; split <;> rfl

theorem startAttempt_ordinal : (startAttempt item).ordinal = item.ordinal := by
  unfold startAttempt; split <;> rfl

theorem startAttempt_source : (startAttempt item).source = item.source := by
  unfold startAttempt; split <;> rfl

theorem startAttempt_waiting : (startAttempt item).status.waiting = false := by
  unfold startAttempt
  split
  · rfl
  rename_i idle; exact Bool.eq_false_iff.mpr idle

theorem startAttempt_reads (reading : ItemStatus → Bool) (quiet : ∀ status : ItemStatus, status.unfinished → reading status = false) :
    reading (startAttempt item).status = reading item.status := by
  unfold startAttempt
  split
  · rename_i waits
    rw [quiet _ rfl,quiet]
    simp [ItemStatus.unfinished,waits]
  rfl

theorem unfinished_reads (status : ItemStatus) (unfinished : status.unfinished) :
    status.succeeded = false ∧ (decide (status = .failed)) = false ∧ status.closed = false ∧ decide (status = .cancelled) = false := by
  cases status <;> first | exact ⟨rfl,rfl,rfl,rfl⟩ | cases unfinished

theorem markItemRunning_ledger (ledger : Ledger t) : Ledger (markItemRunning id t) := by
  obtain ⟨keyed,ordinals,queued,succeeded,failed,processed,files,attempts,cancelled,completed⟩ := ledger
  rw [markItemRunning_eq]
  refine ⟨amend_keyed keyed fun row => startAttempt_id,amend_ordinals ordinals fun row => startAttempt_ordinal,fun waits => ?_,?_,?_,?_,?_,?_,?_,?_⟩
  · show KeyedRows.amend Item.id t.items id startAttempt = []
    rw [queued waits]; rfl
  · rw [countP_amend_same fun row _ _ => startAttempt_reads _ fun status unfinished => (unfinished_reads status unfinished).1]
    exact succeeded
  · rw [countP_amend_same fun row _ _ => startAttempt_reads (fun status => decide (status = .failed))
      fun status unfinished => (unfinished_reads status unfinished).2.1]
    exact failed
  · rw [countP_amend_same fun row _ _ => startAttempt_reads _ fun status unfinished => (unfinished_reads status unfinished).2.2.1]
    exact processed
  · show (KeyedRows.amend Item.id t.items id startAttempt).length = _
    rw [length_amend]; exact files
  · intro row mem waits
    rcases mem_amend.mp mem with ⟨old,_⟩ | ⟨old,_,_,rfl⟩
    · exact attempts row old waits
    rw [startAttempt_waiting] at waits; cases waits
  · intro isOpen row mem
    rcases mem_amend.mp mem with ⟨old,_⟩ | ⟨old,there,_,rfl⟩
    · exact cancelled isOpen row old
    have same : decide ((startAttempt old).status = .cancelled) = decide (old.status = .cancelled) :=
      startAttempt_reads (fun status => decide (status = .cancelled))
        fun status unfinished => (unfinished_reads status unfinished).2.2.2
    exact fun isCancelled => cancelled isOpen old there (of_decide_eq_true (same ▸ decide_eq_true isCancelled))
  intro done row mem
  rcases mem_amend.mp mem with ⟨old,_⟩ | ⟨old,there,_,rfl⟩
  · exact completed done row old
  rw [startAttempt_reads _ fun status unfinished => (unfinished_reads status unfinished).1]
  exact completed done old there

def Tables.mark (t : Tables σ) (id : Nat) (status : ItemStatus) : Tables σ := t.amend id fun row => { row with status := status }

theorem mark_count (target : ItemStatus) (keyed : Keyed Item.id t.items) (mem : row ∈ t.items) (counted : ItemStatus → Bool) :
    (t.mark row.id target).items.countP (fun item => counted item.status) + (if counted row.status then 1 else 0) =
      t.items.countP (fun item => counted item.status) + if counted target then 1 else 0 :=
  keyed.countP_amend mem (fun item => counted item.status) fun item => { item with status := target }

theorem mark_mem (there : item ∈ (t.mark id target).items) :
    (item ∈ t.items ∧ item.id ≠ id) ∨ ∃ old ∈ t.items, old.id = id ∧ { old with status := target } = item := mem_amend.mp there

theorem countJob_counting {count : Job → Job} (counting : t.job.status.counting) : countJob count t = { t with job := count t.job } := by
  unfold countJob
  rw [if_pos counting]

theorem markItemResult_eq (counting : t.job.status.counting) : markItemResult current skipped t =
    { t.mark current.id (if skipped then .skipped else .completed) with
      job := { t.job with processed := t.job.processed + 1, succeeded := t.job.succeeded + 1 } } :=
  countJob_counting (t := t.mark current.id _) counting

section
variable (ledger : Ledger t) (counting : t.job.status.counting) (mem : row ∈ t.items)
include ledger counting mem

theorem unsettled_closed (unsettled : row.status.settled = false) : row.status.closed = false := by
  have apart := ledger.cancelled (counting_open counting) row mem
  simp [ItemStatus.closed,unsettled,apart]

theorem markItemResult_ledger (same : row.id = current.id) (unsettled : row.status.settled = false) : Ledger (markItemResult current skipped t) := by
  have unclosed := unsettled_closed ledger counting mem unsettled
  have keyed := ledger.keyed
  rw [markItemResult_eq counting,←same]
  have good1 : ∀ b : Bool, (if b then ItemStatus.skipped else .completed).succeeded := by decide
  have good := mark_count (if skipped then .skipped else .completed) keyed mem ItemStatus.succeeded
  have bad := mark_count (if skipped then .skipped else .completed) keyed mem fun status => decide (status = .failed)
  have all := mark_count (if skipped then .skipped else .completed) keyed mem ItemStatus.closed
  have ends : (if skipped then ItemStatus.skipped else .completed).closed := by cases skipped <;> rfl
  have fails : decide ((if skipped then ItemStatus.skipped else .completed) = .failed) = false := by cases skipped <;> rfl
  have wasFailed : decide (row.status = .failed) = false := by
    simp only [ItemStatus.settled,Bool.or_eq_false_iff] at unsettled
    exact unsettled.2
  rw [good1,settled_succeeded unsettled] at good
  rw [fails,wasFailed] at bad
  rw [ends,unclosed] at all
  simp only [Bool.false_eq_true,if_false,if_true,Nat.add_zero] at good bad all
  refine ⟨amend_keyed keyed fun _ => rfl,amend_ordinals ledger.ordinals fun _ => rfl,?_,?_,?_,?_,?_,?_,?_,?_⟩
  · intro waits
    rw [waits] at counting; cases counting
  · show t.job.succeeded + 1 = _
    rw [good,ledger.succeeded]
  · show t.job.failed = _
    rw [bad,ledger.failed]
  · show t.job.processed + 1 ≤ _
    rw [all]
    exact Nat.add_le_add_right ledger.processed 1
  · show (KeyedRows.amend Item.id t.items row.id _).length = t.job.fileCount
    rw [length_amend]; exact ledger.files
  · intro item there waits
    rcases mark_mem there with ⟨old,_⟩ | ⟨old,_,_,rfl⟩
    · exact ledger.attempts item old waits
    cases skipped <;> cases waits
  · intro isOpen item there
    rcases mark_mem there with ⟨old,_⟩ | ⟨old,_,_,rfl⟩
    · exact ledger.cancelled isOpen item old
    cases skipped <;> nofun
  intro done
  rw [done] at counting; cases counting
end

theorem failureStatus_cases (item : Item σ) (retryable : Bool) :
    failureStatus item retryable = .failed ∨ (failureStatus item retryable = .retrying ∧ retryable ∧ item.attempts < 4) := by
  unfold failureStatus
  split
  · rename_i both
    exact .inr ⟨rfl,(Bool.and_eq_true_iff.mp both).1,of_decide_eq_true (Bool.and_eq_true_iff.mp both).2⟩
  exact .inl rfl

theorem markItemFailure_failed (counting : t.job.status.counting) (ends : failureStatus current retryable = .failed) :
    markItemFailure current retryable t = { t.mark current.id .failed with
      job := { t.job with processed := t.job.processed + 1, failed := t.job.failed + 1 } } := by
  unfold markItemFailure
  rw [if_pos ends,ends]
  exact countJob_counting (t := t.mark current.id .failed) counting

theorem markItemFailure_retrying (again : failureStatus current retryable = .retrying) : markItemFailure current retryable t = t.mark current.id .retrying := by
  unfold markItemFailure
  rw [again]
  rfl

theorem markItemFailure_ledger (ledger : Ledger t) (own : ∀ row ∈ t.items, row.id = current.id → row.attempts = current.attempts) (counting : t.job.status.counting) (mem : row ∈ t.items)
    (same : row.id = current.id) (unsettled : row.status.settled = false) : Ledger (markItemFailure current retryable t) := by
  have unclosed := unsettled_closed ledger counting mem unsettled
  have keyed := ledger.keyed
  have wasFailed : decide (row.status = .failed) = false := by
    simp only [ItemStatus.settled,Bool.or_eq_false_iff] at unsettled
    exact unsettled.2
  have good (target) := mark_count target keyed mem ItemStatus.succeeded
  have bad (target) := mark_count target keyed mem fun status => decide (status = .failed)
  have all (target) := mark_count target keyed mem ItemStatus.closed
  simp only [settled_succeeded unsettled,unclosed,wasFailed,Bool.false_eq_true,if_false,Nat.add_zero] at good bad all
  rcases failureStatus_cases current retryable with ends | ⟨again,_,few⟩
  · rw [markItemFailure_failed counting ends,←same]
    refine ⟨amend_keyed keyed fun _ => rfl,amend_ordinals ledger.ordinals fun _ => rfl,?_,?_,?_,?_,?_,?_,?_,?_⟩
    · intro waits
      rw [waits] at counting; cases counting
    · exact ledger.succeeded.trans (good .failed).symm
    · show t.job.failed + 1 = _
      rw [bad .failed,ledger.failed]; rfl
    · show t.job.processed + 1 ≤ _
      rw [all .failed]
      exact Nat.add_le_add_right ledger.processed 1
    · show (KeyedRows.amend Item.id t.items row.id _).length = t.job.fileCount
      rw [length_amend]; exact ledger.files
    · intro item there waits
      rcases mark_mem there with ⟨old,_⟩ | ⟨old,_,_,rfl⟩
      · exact ledger.attempts item old waits
      cases waits
    · intro isOpen item there
      rcases mark_mem there with ⟨old,_⟩ | ⟨old,_,_,rfl⟩
      · exact ledger.cancelled isOpen item old
      nofun
    intro done
    rw [done] at counting; cases counting
  rw [markItemFailure_retrying again,←same]
  refine ⟨amend_keyed keyed fun _ => rfl,amend_ordinals ledger.ordinals fun _ => rfl,?_,ledger.succeeded.trans (good .retrying).symm,ledger.failed.trans (bad .retrying).symm,
    Nat.le_trans ledger.processed (Nat.le_of_eq (all .retrying).symm),?_,?_,?_,?_⟩
  · intro waits
    change t.job.status = .queued at waits
    rw [waits] at counting; cases counting
  · show (KeyedRows.amend Item.id t.items row.id _).length = t.job.fileCount
    rw [length_amend]; exact ledger.files
  · intro item there waits
    rcases mark_mem there with ⟨old,_⟩ | ⟨old,was,here,rfl⟩
    · exact ledger.attempts item old waits
    exact own old was (here.trans same) ▸ few
  · intro isOpen item there
    rcases mark_mem there with ⟨old,_⟩ | ⟨old,_,_,rfl⟩
    · exact ledger.cancelled isOpen item old
    nofun
  intro done
  change t.job.status = .completed at done
  rw [done] at counting; cases counting

def closeItem (item : Item σ) : Item σ := if item.status.unfinished then { item with status := .cancelled } else item

theorem closeItem_id : (closeItem item).id = item.id := by
  unfold closeItem; split <;> rfl

theorem closeItem_ordinal : (closeItem item).ordinal = item.ordinal := by
  unfold closeItem; split <;> rfl

theorem closeItem_reads (reading : ItemStatus → Bool) (quiet : ∀ status : ItemStatus, status.unfinished → reading status = false)
    (cancelled : reading .cancelled = false) : reading (closeItem item).status = reading item.status := by
  unfold closeItem
  split
  · rename_i unfinished
    rw [quiet _ unfinished]; exact cancelled
  rfl

theorem closeItem_finished (finished : item.status.unfinished = false) : closeItem item = item := by
  unfold closeItem
  rw [finished]; rfl

theorem succeeded_finished {status : ItemStatus} (done : status.succeeded) : status.unfinished = false := by
  cases status <;> first | rfl | cases done

theorem closeItem_finishes (item : Item σ) : (closeItem item).status.unfinished = false := by
  unfold closeItem
  split
  · rfl
  rename_i finished; exact Bool.eq_false_iff.mpr finished

theorem finalizeJob_ledger (ledger : Ledger t) (closes : status.open' = false)
    (done : status = .completed → t.job.status.open' → ∀ item ∈ t.items, item.status.succeeded) : Ledger (finalizeJob recounts status t) := by
  have count (reading : ItemStatus → Bool) (quiet : ∀ status : ItemStatus, status.unfinished → reading status = false)
      (cancelled : reading .cancelled = false) :
      (t.items.map closeItem).countP (fun item => reading item.status) = t.items.countP fun item => reading item.status := by
    rw [countP_map]
    exact countP_congr fun item _ => by simp [closeItem_reads reading quiet cancelled]
  have succeeded := count ItemStatus.succeeded (fun status unfinished => (unfinished_reads status unfinished).1) rfl
  have failed := count (fun status => decide (status = .failed)) (fun status unfinished => (unfinished_reads status unfinished).2.1) rfl
  have closed : t.items.countP (·.status.closed) ≤ (t.items.map closeItem).countP (·.status.closed) := by
    rw [countP_map]
    refine countP_mono_left fun item _ isClosed => ?_
    simp only [comp,closeItem]
    split
    · rfl
    exact isClosed
  have keyed : Keyed Item.id (t.items.map closeItem) := by
    rw [Keyed,map_map,show (Item.id ∘ closeItem : Item σ → Nat) = Item.id from funext fun item => closeItem_id]
    exact ledger.keyed
  have ordinals : Keyed Item.ordinal (t.items.map closeItem) := by
    rw [Keyed,map_map,show (Item.ordinal ∘ closeItem : Item σ → Nat) = Item.ordinal from funext fun item => closeItem_ordinal]
    exact ledger.ordinals
  have waits : ∀ item ∈ t.items.map closeItem, item.status.waiting → item.attempts < 4 := by
    intro _ mem waits
    obtain ⟨old,_,rfl⟩ := mem_map.mp mem
    have finished := closeItem_finishes old
    simp only [ItemStatus.unfinished,Bool.or_eq_false_iff] at finished
    rw [finished.1] at waits; cases waits
  have allDone (every : ∀ item ∈ t.items, item.status.succeeded) : ∀ item ∈ t.items.map closeItem, item.status.succeeded := by
    intro _ mem
    obtain ⟨old,there,rfl⟩ := mem_map.mp mem
    rw [closeItem_finished (succeeded_finished (every old there))]
    exact every old there
  unfold finalizeJob
  by_cases isOpen : t.job.status.open'
  · simp only [if_pos isOpen]
    refine ⟨keyed,ordinals,?_,ledger.succeeded.trans succeeded.symm,ledger.failed.trans failed.symm,?_,?_,waits,?_,?_⟩
    · intro queued
      change status = .queued at queued
      rw [queued] at closes; cases closes
    · show (if recounts = true then _ else _) ≤ _
      split
      · exact Nat.le_refl _
      exact Nat.le_trans ledger.processed closed
    · show (t.items.map closeItem).length = t.job.fileCount
      rw [length_map]; exact ledger.files
    · intro stillOpen
      cases closes.symm.trans stillOpen
    intro completed
    exact allDone (done completed isOpen)
  simp only [if_neg isOpen]
  refine ⟨keyed,ordinals,?_,ledger.succeeded.trans succeeded.symm,ledger.failed.trans failed.symm,Nat.le_trans ledger.processed closed,?_,waits,?_,?_⟩
  · intro queued
    show t.items.map closeItem = []
    rw [ledger.queued queued]; rfl
  · show (t.items.map closeItem).length = t.job.fileCount
    rw [length_map]; exact ledger.files
  · intro stillOpen; exact absurd stillOpen isOpen
  intro completed
  exact allDone (ledger.completed completed)

theorem amend_kept (kept : ∀ row ∈ t.items, row.id = id → row.status.succeeded → (change row).status = row.status)
    (ids : ∀ row, (change row).id = row.id) : Kept t (t.amend id change) := by
  intro item mem done
  by_cases here : item.id = id
  · exact ⟨change item,mem_amend.mpr (.inr ⟨item,mem,here,rfl⟩),ids item,kept item mem here done⟩
  exact ⟨item,mem_amend.mpr (.inl ⟨mem,here⟩),rfl,rfl⟩

theorem markItemRunning_kept : Kept t (markItemRunning id t) := by
  refine amend_kept (fun row _ _ done => ?_) fun row => startAttempt_id
  have idle : row.status.waiting = false := by
    have finished := succeeded_finished done
    simp only [ItemStatus.unfinished,Bool.or_eq_false_iff] at finished
    exact finished.1
  rw [idle]; rfl

theorem mark_kept {target : ItemStatus} (unsettled : ∀ row ∈ t.items, row.id = id → row.status.settled = false) : Kept t (t.mark id target) :=
  amend_kept (fun row mem same done => by rw [settled_succeeded (unsettled row mem same)] at done; cases done) fun _ => rfl

section
variable (unsettled : ∀ row ∈ t.items, row.id = current.id → row.status.settled = false)
include unsettled

theorem markItemResult_kept :
    Kept t (markItemResult current skipped t) := mark_kept unsettled

theorem markItemFailure_kept : Kept t (markItemFailure current retryable t) := by
  unfold markItemFailure
  split
  · exact mark_kept unsettled
  exact mark_kept unsettled
end

theorem finalizeJob_kept : Kept t (finalizeJob recounts status t) := by
  intro item mem done
  exact ⟨closeItem item,mem_map_of_mem mem,closeItem_id,by rw [closeItem_finished (succeeded_finished done)]⟩
end LedgeTopOps.FileTransfers
