import LedgeTopOps.StepRuns
import LedgeTopOps.FlowLists
import Mathlib.Algebra.GroupWithZero.Nat

namespace LedgeTopOps.ThumbnailBackfill
open StepRuns FlowLists List

inductive Status where
  | queued | running | completed | failed
deriving DecidableEq

def Status.over : Status → Bool
  | .completed | .failed => true
  | .queued | .running => false

structure PageCounts where
  (discovered eligible queued skipped ready failedDlq pending : Nat)
deriving DecidableEq

-- A row of image_thumbnail_backfill_runs. A cursor is the number of pages that
-- have been listed up to it.
structure Row where
  status : Status
  cursor : Option Nat
  attemptCount : Nat
  lease : Option Nat
  pageCount : Nat
  counts : PageCounts
deriving DecidableEq

-- What the bucket lists, by the number of objects on each page; an empty bucket
-- lists one empty page.
structure Bucket where
  pages : List Nat
  some_ : pages ≠ []
  dryRun : Bool

inductive Outcome where
  | skipped | ready | failedDlq | pending | queued
deriving DecidableEq

def PageCounts.tally (c : PageCounts) : Outcome → PageCounts
  | .skipped => { c with skipped := c.skipped + 1 }
  | .ready => { c with eligible := c.eligible + 1, ready := c.ready + 1 }
  | .failedDlq => { c with eligible := c.eligible + 1, failedDlq := c.failedDlq + 1 }
  | .pending => { c with eligible := c.eligible + 1, pending := c.pending + 1 }
  | .queued => { c with eligible := c.eligible + 1, queued := c.queued + 1 }

def PageCounts.add (c d : PageCounts) : PageCounts :=
  ⟨c.discovered + d.discovered,c.eligible + d.eligible,c.queued + d.queued,c.skipped + d.skipped,c.ready + d.ready,
    c.failedDlq + d.failedDlq,c.pending + d.pending⟩

structure Turn where
  (attempts processed : Nat)
deriving DecidableEq

-- The call an invocation of processThumbnailBackfills makes next.
inductive Pc where
  | select
  | claim (attempts : Nat)
  | current (turn : Turn)
  | list (turn : Turn) (page : Nat)
  | object (turn : Turn) (page left : Nat) (counts : PageCounts)
  | countQueued (turn : Turn) (page left : Nat) (counts : PageCounts)
  | savePage (turn : Turn) (page : Nat) (counts : PageCounts)
  | handBack (turn : Turn)
  | record (turn : Turn)
  | finished
deriving DecidableEq

-- holder is the last invocation to claim the run, saved the pages in their order; undisturbed: no call has failed and
-- no invocation has taken the run over.
structure World where
  row : Row
  now : Nat
  flows : List Pc
  holder : Option Nat
  undisturbed : Bool
  saved : List Nat
deriving DecidableEq

def World.start : World := ⟨⟨.queued,none,0,none,0,⟨0,0,0,0,0,0,0⟩⟩,0,[],none,true,[]⟩
def Bucket.maxPages (b : Bucket) : Nat := if b.dryRun then 10 else 3
def Bucket.truncated (b : Bucket) (page : Nat) : Bool := decide (page + 1 < b.pages.length)

def World.claimable (w : World) : Bool :=
  w.row.status = .queued || (w.row.status = .running && w.row.lease.all fun lease => decide (lease ≤ w.now))

def World.go (w : World) (i : Nat) (pc : Pc) : World := { w with flows := w.flows.set i pc }
def World.fails (w : World) (i : Nat) (pc : Pc) : World := { w with flows := w.flows.set i pc, undisturbed := false }

def World.claimed (w : World) (i : Nat) : World :=
  { w with
    row := { w.row with status := .running, attemptCount := w.row.attemptCount + 1, lease := some (w.now + 300) }
    holder := some i
    undisturbed := w.undisturbed && decide (w.row.status = .queued) }

def World.counted (w : World) : World := { w with row := { w.row with counts := { w.row.counts with queued := w.row.counts.queued + 1 } } }

def World.savePage (w : World) (b : Bucket) (page : Nat) (counts : PageCounts) : World :=
  { w with
    row := if b.truncated page then ⟨.running,some (page + 1),0,some (w.now + 300),w.row.pageCount + 1,w.row.counts.add counts⟩
      else ⟨.completed,none,0,none,w.row.pageCount + 1,w.row.counts.add counts⟩
    saved := w.saved++[page] }

def World.handBack (w : World) : World := if w.row.status = .running then { w with row := { w.row with status := .queued, lease := none } } else w

def World.record (w : World) (turn : Turn) : World :=
  { w with row := { w.row with status := if 8 ≤ turn.attempts + 1 then .failed else .queued, lease := none } }

-- A call returns, fails before or after it takes effect, or has sorted an object.
inductive Reply where
  | done
  | failed (effected : Bool)
  | sorted (outcome : Outcome)
deriving DecidableEq

def onward (turn : Turn) (page left : Nat) (counts : PageCounts) : Pc :=
  if left = 0 then .savePage turn page counts else .object turn page left counts

def afterPage (b : Bucket) (turn : Turn) (page : Nat) : Pc :=
  if b.truncated page then
    if turn.processed + 1 < b.maxPages then .current { turn with processed := turn.processed + 1 } else .handBack turn
  else .finished

def step (b : Bucket) (w : World) (i : Nat) (pc : Pc) (reply : Reply) : Option World := match pc,reply with
  | .select,.done => some (w.go i (if w.claimable then .claim w.row.attemptCount else .finished))
  | .claim attempts,.done => some (if w.claimable then (w.claimed i).go i (.current ⟨attempts,0⟩) else w.go i .finished)
  | .claim _,.failed effected => some ((if effected && w.claimable then w.claimed i else w).fails i .finished)
  | .current turn,.done => some (w.go i (if w.row.status = .running then .list turn (w.row.cursor.getD 0) else .handBack turn))
  | .list turn page,.done =>
    some (w.go i (onward turn page (b.pages.getD page 0) ⟨b.pages.getD page 0,0,0,0,0,0,0⟩))
  | .object turn page left counts,.sorted outcome => some (w.go i (
    if outcome = .queued ∧ b.dryRun = false then .countQueued turn page (left - 1) { counts with eligible := counts.eligible + 1 }
    else onward turn page (left - 1) (counts.tally outcome)))
  | .countQueued turn page left counts,.done => some (w.counted.go i (onward turn page left counts))
  | .countQueued turn _ _ _,.failed effected => some ((if effected then w.counted else w).fails i (.record turn))
  | .savePage turn page counts,.done => some ((w.savePage b page counts).go i (afterPage b turn page))
  | .savePage turn page counts,.failed effected => some ((if effected then w.savePage b page counts else w).fails i (.record turn))
  | .handBack _,.done => some (w.handBack.go i .finished)
  | .handBack turn,.failed effected => some ((if effected then w.handBack else w).fails i (.record turn))
  | .record turn,.done => some ((w.record turn).go i .finished)
  | .record turn,.failed effected => some ((if effected then w.record turn else w).fails i .finished)
  | .select,.failed _ => some (w.fails i .finished)
  | .current turn,.failed _ | .list turn _,.failed _ | .object turn _ _ _,.failed _ => some (w.fails i (.record turn))
  | _,_ => none

-- An invocation that crashes is one that is called no more.
inductive Event where
  | processThumbnailBackfills
  | call (i : Nat) (reply : Reply)
  | time (now : Nat)

def next (b : Bucket) (w : World) : Event → Option World
  | .processThumbnailBackfills => some { w with flows := w.flows++[.select] }
  | .call i reply => w.flows[i]?.bind fun pc => step b w i pc reply
  | .time now => if w.now ≤ now then some { w with now := now } else none

def Step (b : Bucket) (w : World) (event : Event) (v : World) : Prop := next b w event = some v

-- An invocation writes only while no other has claimed the run since, but for a hand-back of a run that is over; the
-- completing save does not fail after its effect.
def orderly (b : Bucket) (w : World) : Event → Bool
  | .call i reply => w.flows[i]?.all fun
    | .countQueued _ _ _ _ | .record _ => decide (w.holder = some i)
    | .savePage _ page _ => decide (w.holder = some i) && (b.truncated page || decide (reply ≠ .failed true))
    | .handBack _ => decide (w.holder = some i) || decide (w.row.status ≠ .running)
    | _ => true
  | _ => true

structure Examined (b : Bucket) (row : Row) (saved : List Nat) : Prop where
  saved : saved = range b.pages.length
  pages : row.pageCount = b.pages.length
  discovered : row.counts.discovered = b.pages.sum
  sorted : row.counts.eligible + row.counts.skipped = row.counts.discovered
  eligible : row.counts.queued + row.counts.ready + row.counts.failedDlq + row.counts.pending = row.counts.eligible

section
variable {b : Bucket} {w : World} {i k : Nat} {pc after : Pc}

def Pc.works : Pc → Bool
  | .select | .claim _ | .finished => false
  | _ => true

structure Balanced (b : Bucket) (row : Row) (saved : List Nat) (k : Nat) : Prop where
  cursor : row.cursor.getD 0 = k
  more : k < b.pages.length
  saved : saved = range k
  pages : row.pageCount = k
  discovered : row.counts.discovered = (b.pages.take k).sum
  sorted : row.counts.eligible + row.counts.skipped = row.counts.discovered

-- Every eligible object is in one of the four counts, but for those that wait
-- for theirs.
def Sums (c d : PageCounts) (waiting : Nat) : Prop :=
  c.queued + c.ready + c.failedDlq + c.pending + (d.queued + d.ready + d.failedDlq + d.pending) + waiting = c.eligible + d.eligible

def Listed (b : Bucket) (page left : Nat) (c : PageCounts) : Prop :=
  c.discovered = b.pages.getD page 0 ∧ c.eligible + c.skipped + left = c.discovered

def zero : PageCounts := ⟨0,0,0,0,0,0,0⟩

def Part (b : Bucket) (c : PageCounts) (k : Nat) : Pc → Prop
  | .current _ | .handBack _ => Sums c zero 0
  | .list _ page => page = k ∧ Sums c zero 0
  | .object _ page left d => page = k ∧ 0 < left ∧ Listed b page left d ∧ Sums c d 0
  | .countQueued _ page left d => page = k ∧ Listed b page left d ∧ Sums c d 1
  | .savePage _ page d => page = k ∧ Listed b page 0 d ∧ Sums c d 0
  | _ => False

def Idle (w : World) : Prop := ∀ i pc, w.holder = some i → w.flows[i]? = some pc → pc.works = false

def Held (b : Bucket) (w : World) (k : Nat) : Prop :=
  ∃ i pc, w.holder = some i ∧ w.flows[i]? = some pc ∧ Part b w.row.counts k pc

def Tally (b : Bucket) (w : World) : Prop := match w.row.status with
  | .queued => Idle w ∧ ∃ k, Balanced b w.row w.saved k ∧ Sums w.row.counts zero 0
  | .running => ∃ k, Balanced b w.row w.saved k ∧ Held b w k
  | .completed => Examined b w.row w.saved
  | .failed => False

structure Sound (b : Bucket) (w : World) : Prop where
  works : ∀ i pc, w.holder = some i → w.flows[i]? = some pc → pc.works = true → w.row.status.over = false
  tally : w.undisturbed = true → Tally b w

theorem Sound.frame (sound : Sound b w) (now : Nat)
    (worked : ∀ (j : Nat) (pc : Pc), flows[j]? = some pc → pc.works → ∃ old, w.flows[j]? = some old ∧ old.works)
    (held : ∀ k, w.row.status = .running → Balanced b w.row w.saved k → Held b w k → Held b { w with now := now, flows := flows } k) :
    Sound b { w with now := now, flows := flows } := by
  refine ⟨fun j other holds found busy => ?_,fun undisturbed => ?_⟩
  · obtain ⟨old,there,works⟩ := worked j other found busy
    exact sound.works j old holds there works
  have tally := sound.tally undisturbed
  unfold Tally at tally ⊢
  cases status : w.row.status with
  | queued =>
    rw [status] at tally
    refine ⟨fun j other holds found => Bool.eq_false_iff.mpr fun busy => ?_,tally.2⟩
    obtain ⟨old,there,works⟩ := worked j other found busy
    rw [tally.1 j old holds there] at works
    cases works
  | running =>
    rw [status] at tally
    obtain ⟨k,balanced,known⟩ := tally
    exact ⟨k,balanced,held k status balanced known⟩
  | completed | failed =>
    rw [status] at tally
    exact tally

section
variable (sound : Sound b w) (here : w.flows[i]? = some pc) (works : after.works → pc.works)
include sound here works

theorem Sound.go (part : w.row.status = .running → ∀ k, Balanced b w.row w.saved k → Part b w.row.counts k pc → Part b w.row.counts k after) :
    Sound b (w.go i after) := by
  refine sound.frame w.now (fun j other found busy => ?_) fun k running balanced held => ?_
  · rcases moved_get found with ⟨rfl,rfl⟩ | ⟨_,there⟩
    · exact ⟨pc,here,works busy⟩
    · exact ⟨other,there,busy⟩
  obtain ⟨j,other,holds,there,known⟩ := held
  by_cases same : i = j
  · subst same
    cases here.symm.trans there
    exact ⟨i,after,holds,moved_own here,part running k balanced known⟩
  exact ⟨j,other,holds,(getElem?_set_ne same).trans there,known⟩

theorem Sound.fails : Sound b (w.fails i after) := by
  refine ⟨fun j other holds found busy => ?_,fun same => by cases same⟩
  rcases moved_get found with ⟨rfl,rfl⟩ | ⟨_,there⟩
  · exact sound.works j pc holds here (works busy)
  exact sound.works j other holds there busy
end

theorem Sound.running (sound : Sound b w) (holds : w.holder = some i) (here : w.flows[i]? = some pc) (works : pc.works)
    (undisturbed : w.undisturbed) : w.row.status = .running ∧ ∃ k, Balanced b w.row w.saved k ∧ Part b w.row.counts k pc := by
  have tally := sound.tally undisturbed
  have live := sound.works i pc holds here works
  unfold Tally at tally
  cases status : w.row.status with
  | queued =>
    rw [status] at tally
    rw [tally.1 i pc holds here] at works
    cases works
  | running =>
    rw [status] at tally
    obtain ⟨k,balanced,j,_,holds',there,known⟩ := tally
    cases holds.symm.trans holds'
    cases here.symm.trans there
    exact ⟨rfl,k,balanced,known⟩
  | completed | failed =>
    rw [status] at live
    cases live

theorem Sound.holder (holds : v.holder = some i) (there : v.flows[i]? = some after) (works : after.works → v.row.status.over = false)
    (tally : v.undisturbed → Tally b v) : Sound b v := by
  refine ⟨fun j other held found busy => ?_,tally⟩
  cases holds.symm.trans held
  cases there.symm.trans found
  exact works busy

theorem onward_part (listed : Listed b k left d) (sums : Sums c d 0) : Part b c k (onward turn k left d) := by
  unfold onward
  split
  · rename_i all
    rw [all] at listed
    exact ⟨rfl,listed,sums⟩
  exact ⟨rfl,by omega,listed,sums⟩

theorem Listed.tally (listed : Listed b page left c) (some_ : 0 < left) (sums : Sums d c 0) (outcome : Outcome) :
    Listed b page (left - 1) (c.tally outcome) ∧ Sums d (c.tally outcome) 0 := by
  obtain ⟨whole,rest⟩ := listed
  unfold Listed Sums at *
  cases outcome <;> simp only [PageCounts.tally] <;> refine ⟨⟨whole,?_⟩,?_⟩ <;> omega

theorem sum_next (pages : List Nat) (page : Nat) : (pages.take (page + 1)).sum = (pages.take page).sum + pages.getD page 0 := by
  rw [take_add_one,sum_append,getD_eq_getElem?_getD]
  cases pages[page]? <;> simp

theorem saved_tally (balanced : Balanced b w.row w.saved k) (listed : Listed b k 0 d) (sums : Sums w.row.counts d 0) (holds : w.holder = some i)
    (here : w.flows[i]? = some pc) (turn : Turn) : Tally b ((w.savePage b k d).go i (afterPage b turn k)) := by
  obtain ⟨whole,rest⟩ := listed
  have discovered : w.row.counts.discovered + d.discovered = (b.pages.take (k + 1)).sum := by rw [sum_next,balanced.discovered,whole]
  have saved : w.saved++[k] = range (k + 1) := by rw [range_succ,balanced.saved]
  have sorted := balanced.sorted
  have more := balanced.more
  have pages : w.row.pageCount + 1 = k + 1 := by rw [balanced.pages]
  unfold Sums at sums
  unfold Tally World.go World.savePage afterPage Bucket.truncated
  by_cases next : k + 1 < b.pages.length
  · simp only [next,decide_true,if_true]
    refine ⟨k + 1,⟨rfl,next,saved,pages,discovered,?_⟩,i,_,holds,moved_own here,?_⟩
    · simp only [PageCounts.add]
      omega
    split <;> simp only [Part,Sums,PageCounts.add,zero] <;> omega
  simp only [next,decide_false,Bool.false_eq_true,if_false]
  have all : b.pages.length = k + 1 := by omega
  refine ⟨by rw [all]; exact saved,by rw [all]; exact pages,?_,?_,?_⟩
  · rw [←all,take_length] at discovered
    exact discovered
  · simp only [PageCounts.add]
    omega
  simp only [PageCounts.add]
  omega

section
variable (sound : Sound b w) (here : w.flows[i]? = some pc) (guarded : orderly b w (.call i reply)) (ran : step b w i pc reply = some v)
include sound here guarded ran

theorem step_sound : Sound b v := by
  simp only [orderly,here,Option.all_some] at guarded
  cases pc with
  | select =>
    cases reply <;> cases ran
    · refine sound.go here (fun works => ?_) fun _ _ _ part => part.elim
      split at works <;> cases works
    · exact sound.fails here fun works => by cases works
  | claim =>
    cases reply with
    | done =>
      cases ran
      split
      · refine Sound.holder rfl (moved_own here) (fun _ => rfl) fun undisturbed => ?_
        obtain ⟨calm,queued⟩ := Bool.and_eq_true_iff.mp undisturbed
        have tally := sound.tally calm
        unfold Tally at tally
        rw [of_decide_eq_true queued] at tally
        obtain ⟨_,k,balanced,sums⟩ := tally
        exact ⟨k,⟨balanced.cursor,balanced.more,balanced.saved,balanced.pages,balanced.discovered,balanced.sorted⟩,i,_,rfl,moved_own here,sums⟩
      exact sound.go here (fun works => by cases works) fun _ _ _ part => part.elim
    | failed =>
      cases ran
      split
      · exact Sound.holder rfl (moved_own here) (fun works => by cases works) fun same => by cases same
      exact sound.fails here fun works => by cases works
    | sorted => cases ran
  | current =>
    cases reply <;> cases ran
    · refine sound.go here (fun _ => rfl) fun running k balanced part => ?_
      rw [if_pos running]
      exact ⟨balanced.cursor,part⟩
    · exact sound.fails here fun _ => rfl
  | list =>
    cases reply <;> cases ran
    · refine sound.go here (fun _ => rfl) fun _ k _ part => ?_
      obtain ⟨rfl,sums⟩ := part
      exact onward_part ⟨rfl,by simp⟩ sums
    · exact sound.fails here fun _ => rfl
  | object =>
    cases reply <;> cases ran
    · exact sound.fails here fun _ => rfl
    · refine sound.go here (fun _ => rfl) fun _ k _ part => ?_
      obtain ⟨rfl,some_,listed,sums⟩ := part
      split
      · obtain ⟨whole,rest⟩ := listed
        unfold Sums at sums
        refine ⟨rfl,⟨whole,?_⟩,?_⟩
        · dsimp only
          omega
        unfold Sums
        dsimp only
        omega
      obtain ⟨listed,sums⟩ := listed.tally some_ sums _
      exact onward_part listed sums
  | countQueued turn page left counts =>
    have holds := of_decide_eq_true guarded
    have live := sound.works i _ holds here rfl
    cases reply <;> cases ran
    · refine Sound.holder holds (moved_own here) (fun _ => live) fun undisturbed => ?_
      obtain ⟨running,k,balanced,rfl,listed,sums⟩ := sound.running holds here rfl undisturbed
      unfold Tally
      rw [show (w.counted.go i (onward turn page left counts)).row.status = w.row.status from rfl,running]
      refine ⟨page,⟨balanced.cursor,balanced.more,balanced.saved,balanced.pages,balanced.discovered,balanced.sorted⟩,i,_,holds,moved_own here,
        onward_part listed ?_⟩
      unfold Sums at *
      simp only [World.counted,World.go]
      omega
    · split
      · exact Sound.holder holds (moved_own here) (fun _ => live) fun same => by cases same
      · exact sound.fails here fun _ => rfl
  | savePage turn page counts =>
    obtain ⟨held,whole⟩ := Bool.and_eq_true_iff.mp guarded
    have holds := of_decide_eq_true held
    cases reply <;> cases ran
    · refine Sound.holder holds (moved_own here) (fun works => ?_) fun undisturbed => ?_
      · unfold afterPage at works
        unfold World.go World.savePage
        split at works
        · rename_i next
          rw [if_pos next]
          rfl
        cases works
      · obtain ⟨_,k,balanced,rfl,listed,sums⟩ := sound.running holds here rfl undisturbed
        exact saved_tally balanced listed sums holds here turn
    · rename_i effected
      cases effected with
      | false => exact sound.fails here fun _ => rfl
      | true =>
        have next : b.truncated page := by simpa using whole
        refine Sound.holder holds (moved_own here) (fun _ => ?_) fun same => by cases same
        unfold World.fails World.savePage
        rw [if_pos next]
        rfl
  | handBack =>
    by_cases running : w.row.status = .running
    · have holds : w.holder = some i := by simpa [running] using guarded
      have handed : w.handBack = { w with row := { w.row with status := .queued, lease := none } } := if_pos running
      cases reply <;> cases ran
      · rw [handed]
        refine Sound.holder holds (moved_own here) (fun works => by cases works) fun undisturbed => ?_
        obtain ⟨_,k,balanced,sums⟩ := sound.running holds here rfl undisturbed
        refine ⟨fun j other held found => ?_,k,⟨balanced.cursor,balanced.more,balanced.saved,balanced.pages,balanced.discovered,balanced.sorted⟩, sums⟩
        cases holds.symm.trans held
        cases (moved_own here).symm.trans found
        rfl
      · rw [handed]
        split
        · exact Sound.holder holds (moved_own here) (fun _ => rfl) fun same => by cases same
        exact sound.fails here fun _ => rfl
    have same : w.handBack = w := if_neg running
    cases reply <;> cases ran
    · rw [same]
      exact sound.go here (fun works => by cases works) fun is => absurd is running
    · rw [same,ite_self]
      exact sound.fails here fun _ => rfl
  | record =>
    have holds := of_decide_eq_true guarded
    cases reply <;> cases ran
    · refine Sound.holder holds (moved_own here) (fun works => by cases works) fun undisturbed => ?_
      obtain ⟨_,_,_,part⟩ := sound.running holds here rfl undisturbed
      exact part.elim
    · split
      · exact Sound.holder holds (moved_own here) (fun works => by cases works) fun same => by cases same
      · exact sound.fails here fun works => by cases works
  | finished => cases ran

theorem over_stays (ends : w.row.status.over) : v.row = w.row := by
  simp only [orderly,here,Option.all_some] at guarded
  have busy (holds : w.holder = some i) (works : pc.works) : False := by
    rw [sound.works i pc holds here works] at ends
    cases ends
  have closed : w.claimable = false := by
    unfold World.claimable
    cases status : w.row.status <;> rw [status] at ends <;> first | rfl | cases ends
  cases pc with
  | select | current turn | list turn page | object turn page left counts => cases reply <;> cases ran <;> rfl
  | claim =>
    cases reply <;> cases ran
    · rw [if_neg (Bool.eq_false_iff.mp closed)]
      rfl
    · rw [closed,Bool.and_false,if_neg Bool.false_ne_true]
      rfl
  | countQueued | record => exact (busy (of_decide_eq_true guarded) rfl).elim
  | savePage => exact (busy (of_decide_eq_true (Bool.and_eq_true_iff.mp guarded).1) rfl).elim
  | handBack =>
    have same : w.handBack = w := if_neg fun running => by rw [running] at ends; cases ends
    cases reply <;> cases ran
    · rw [same]
      rfl
    · rw [same,ite_self]
      rfl
  | finished => cases ran
end

theorem next_sound (sound : Sound b w) (guarded : orderly b w event) (moved : Step b w event v) : Sound b v ∧ (w.row.status.over → v.row = w.row) := by
  cases event with
  | processThumbnailBackfills =>
    cases moved
    refine ⟨sound.frame w.now (fun j other found busy => ?_) fun k _ _ held => ?_,fun _ => rfl⟩
    · by_cases inside : j < w.flows.length
      · rw [getElem?_append_left inside] at found
        exact ⟨other,found,busy⟩
      · rw [getElem?_append_right (Nat.not_lt.mp inside)] at found
        cases mem_singleton.mp (mem_of_getElem? found)
        cases busy
    obtain ⟨j,other,holds,there,known⟩ := held
    obtain ⟨inside,_⟩ := List.getElem?_eq_some_iff.mp there
    exact ⟨j,other,holds,(List.getElem?_append_left inside).trans there,known⟩
  | call =>
    obtain ⟨_,here,ran⟩ := Option.bind_eq_some_iff.mp moved
    exact ⟨step_sound sound here guarded ran,over_stays sound here guarded ran⟩
  | time now =>
    obtain ⟨_,same⟩ := Option.ite_none_right_eq_some.mp moved
    cases same
    exact ⟨sound.frame now (fun j other found busy => ⟨other,found,busy⟩) fun _ _ _ held => held,fun _ => rfl⟩
end

theorem start_sound (b : Bucket) : Sound b .start := by
  have more : 0 < b.pages.length := length_pos_iff.mpr b.some_
  exact ⟨fun i pc holds => (by cases holds),fun _ => ⟨fun i pc holds => (by cases holds),0,⟨rfl,more,rfl,rfl,rfl,rfl⟩,rfl⟩⟩

def twoPages : Bucket := ⟨[1,1],by decide,true⟩

def peaceful : List Event :=
  .processThumbnailBackfills :: ([.done,.done,.done,.done,.sorted .skipped,.done,.done,.done,.sorted .queued,.done].map (.call 0))

-- An invocation lists the one page of an empty bucket and outlasts its lease; the next invocation saves the page,
-- then the first.
def emptyBucket : Bucket := ⟨[0],by decide,true⟩

def completedRun : List Event :=
  .processThumbnailBackfills :: replicate 4 (.call 0 .done) ++
    .time 300 :: .processThumbnailBackfills :: replicate 5 (.call 1 .done)

end LedgeTopOps.ThumbnailBackfill
