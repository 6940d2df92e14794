import LedgeTopOps.BoundedRounds
import Mathlib.Data.List.Flatten
import Mathlib.Data.List.Nodup
import Mathlib.Data.List.Perm.Basic

namespace LedgeTopOps.NotificationTurns
open List BoundedRounds

inductive Status where
  | pending | processing | sent | cancelled | suppressed | failed
deriving DecidableEq

structure Batch where
  (id sourceId : String)
  status : Status
  attemptCount : Nat
  eligibleAt : String
  leaseExpiresAt : Option String
  createdAt : String

-- The batches of the table at one run, and the time of that run as SQL text.
structure Visit where
  batches : List Batch
  now : String

def scheduledNotificationSources (sources : List String) (cursor : Option String) : List String :=
  match cursor with
  | none => sources
  | some last =>
    if last = "" then sources else
    if last ∈ sources then sources.drop (sources.idxOf last+1)++sources.take (sources.idxOf last+1) else sources

def sooner (time : Batch → Option String) (left right : Batch) : Bool :=
  if time left = time right then (if left.createdAt = right.createdAt then left.id ≤ right.id else left.createdAt < right.createdAt)
  else (time left).getD "" < (time right).getD ""

def readyBatches (localeCompare : String → String → Int) (visit : Visit) (source : String) : List Batch :=
  let open_ := visit.batches.filter fun b => b.sourceId = source ∧ b.attemptCount < 3
  let pending := open_.filter fun b => b.status = .pending ∧ b.eligibleAt ≤ visit.now
  let processing := open_.filter fun b => b.status = .processing ∧ b.leaseExpiresAt.any (· ≤ visit.now)
  ((pending.mergeSort (sooner fun b => some b.eligibleAt)).take 10++(processing.mergeSort (sooner (·.leaseExpiresAt))).take 10).mergeSort fun left right =>
      let created := localeCompare left.createdAt right.createdAt
      (if created = 0 then localeCompare left.id right.id else created) ≤ 0

def candidates (groups : List (List Batch)) : List Batch :=
  upTo 10 (fun taken rank => taken++(groups.filterMap (·[rank]?)).take (10-taken.length)) [] (range 20)

def takeTurns (sources : List String) (cursor : Option String) (ready : String → List Batch) : List Batch × Option String :=
  let taken := candidates ((scheduledNotificationSources sources cursor).map ready)
  (taken,match taken.getLast? with
    | some last => if last.sourceId = "" then cursor else some last.sourceId
    | none => cursor)

def processBatches (localeCompare : String → String → Int) (sources : List String) (cursor : Option String) (visit : Visit) :
    List Batch × Option String := takeTurns sources cursor (readyBatches localeCompare visit)

def cursors (localeCompare : String → String → Int) (sources : List String) (start : Option String) (visits : Nat → Visit) : Nat → Option String
  | 0 => start
  | run+1 => (processBatches localeCompare sources (cursors localeCompare sources start visits run) (visits run)).2

def ranked (groups : List (List Batch)) (ranks : List Nat) : List Batch := ranks.flatMap fun rank => groups.filterMap (·[rank]?)

theorem candidates_ranked : candidates groups = (ranked groups (range 20)).take 10 := by
  have fills : Fills 10 (fun taken rank => taken++(groups.filterMap (·[rank]?)).take (10-taken.length)) fun rank : Nat =>
      groups.filterMap (·[rank]?) := by
    intro _ _ room
    rw [take_append,take_of_length_le (Nat.le_of_lt room)]
  rw [candidates,upTo_fills fills (Nat.zero_le _),nil_append]
  rfl

theorem group_ranks (small : group.length ≤ n) : (range n).flatMap (fun rank => group[rank]?.toList) = group := by
  induction group generalizing n with
  | nil => simp
  | cons first rest ih =>
    obtain ⟨m,rfl⟩ : ∃ m, n = m+1 := ⟨n-1,by simp at small; omega⟩
    rw [range_succ_eq_map,flatMap_cons,flatMap_map]
    exact congrArg (first :: ·) (ih (by simpa using small))

theorem ranked_perm (small : ∀ group ∈ groups, group.length ≤ 20) : ranked groups (range 20) ~ groups.flatten := by
  induction groups with
  | nil => simp [ranked]
  | cons group rest ih =>
    have split : ranked (group :: rest) (range 20) = (range 20).flatMap fun rank => group[rank]?.toList++rest.filterMap (·[rank]?) := by
      refine congrArg (flatMap · _) (funext fun rank => ?_)
      cases at_ : group[rank]? <;> simp [at_]
    rw [split,flatten_cons]
    refine (flatMap_append_perm _ _ _).symm.trans ?_
    rw [group_ranks (small group mem_cons_self)]
    exact (ih fun other mem => small other (mem_cons_of_mem _ mem)).append_left _

structure Ready (ready : String → List Batch) : Prop where
  small : ∀ source, (ready source).length ≤ 20
  own : ∀ source, ∀ b ∈ ready source, b.sourceId = source
  once : ∀ source, (ready source).Nodup

theorem readyBatches_ready (distinct : visit.batches.Nodup) : Ready (readyBatches localeCompare visit) := by
  have part : ∀ source (keep : Batch → Bool) order, (((visit.batches.filter fun b => b.sourceId = source ∧ b.attemptCount < 3).filter keep).mergeSort
      order |>.take 10).Nodup := fun _ _ _ =>
    ((mergeSort_perm _ _).nodup_iff.mpr ((distinct.filter _).filter _)).sublist (take_sublist _ _)
  constructor
  · intro source
    simp only [readyBatches,length_mergeSort,length_append,length_take]
    omega
  · intro _ b mem
    simp only [readyBatches,mem_mergeSort,mem_append] at mem
    have kept := mem.imp mem_of_mem_take mem_of_mem_take
    simp only [mem_mergeSort,mem_filter,decide_eq_true_eq] at kept
    exact kept.elim (·.1.2.1) (·.1.2.1)
  intro _
  refine (mergeSort_perm _ _).nodup_iff.mpr (nodup_append'.mpr ⟨part _ _ _,part _ _ _,fun b first second => ?_⟩)
  have pending := mem_mergeSort.mp (mem_of_mem_take first)
  have processing := mem_mergeSort.mp (mem_of_mem_take second)
  simp only [mem_filter,decide_eq_true_eq] at pending processing
  cases pending.2.1.symm.trans processing.2.1

section
variable {sources : List String} (good : Ready ready)

theorem scheduled_split (sources : List String) (cursor : Option String) : ∃ front back, sources = front++back ∧ scheduledNotificationSources sources cursor = back++front := by
  unfold scheduledNotificationSources
  split
  · exact ⟨sources,[],by simp⟩
  split
  · exact ⟨sources,[],by simp⟩
  split
  · exact ⟨_,_,(take_append_drop _ _).symm,rfl⟩
  · exact ⟨sources,[],by simp⟩

theorem scheduled_at (distinct : (front++last :: back).Nodup) (named : last ≠ "") :
    scheduledNotificationSources (front++last :: back) (some last) = back++front++[last] := by
  have outside : last ∉ front := fun mem => (nodup_append'.mp distinct).2.2 mem mem_cons_self
  simp only [scheduledNotificationSources,if_neg named,mem_append,mem_cons_self,or_true,if_true,idxOf_append_of_notMem outside,idxOf_cons_self]
  simp [take_append,drop_append,drop_eq_nil_of_le,take_of_length_le]

theorem scheduled_next (distinct : sources.Nodup) (named : last ≠ "") (rotation : scheduledNotificationSources sources cursor = before++last :: later) :
    scheduledNotificationSources sources (some last) = later++before++[last] := by
  obtain ⟨front,back,rfl,turned⟩ := scheduled_split sources cursor
  rcases append_eq_append_iff.mp (turned.symm.trans rotation) with ⟨middle,rfl,rfl⟩ | ⟨middle,rfl,same⟩
  · rw [append_assoc,cons_append] at distinct ⊢
    rw [scheduled_at distinct named]
    simp
  cases middle with
  | nil =>
    rw [←show last :: later = front from same,append_nil] at distinct ⊢
    have first := scheduled_at (show ([]++last :: (later++before)).Nodup from distinct) named
    exact first.trans (by simp)
  | cons =>
    obtain ⟨rfl,rfl⟩ := cons.inj same
    rw [←append_assoc] at distinct ⊢
    rw [scheduled_at distinct named]
    simp

theorem scheduled_perm : scheduledNotificationSources sources cursor ~ sources := by
  obtain ⟨front,back,rfl,turned⟩ := scheduled_split sources cursor
  rw [turned]
  exact perm_append_comm

theorem filterMap_cut {f : α → Option β} (enough : n < (l.filterMap f).length) :
    ∃ before last later b, l = before++last :: later ∧ f last = some b ∧ (l.filterMap f).take (n+1) = before.filterMap f++[b] ∧ n ≤ before.length := by
  induction l generalizing n with
  | nil => cases enough
  | cons first rest ih =>
    cases found : f first with
    | none =>
      rw [filterMap_cons_none found] at enough ⊢
      obtain ⟨before,last,later,b,rfl,here,same,long⟩ := ih enough
      exact ⟨first :: before,last,later,b,rfl,here,by rw [same,filterMap_cons_none found],Nat.le_succ_of_le long⟩
    | some b =>
      rw [filterMap_cons_some found] at enough ⊢
      cases n with
      | zero => exact ⟨[],first,rest,b,rfl,found,by simp,Nat.le_refl _⟩
      | succ n =>
        obtain ⟨before,last,later,c,rfl,here,same,long⟩ := ih (by simpa using enough)
        exact ⟨first :: before,last,later,c,rfl,here,by rw [take_succ_cons,same,filterMap_cons_some found,cons_append],Nat.succ_le_succ long⟩

include good

-- A source passed over comes at least ten places nearer.
theorem passed_over (distinct : sources.Nodup) (named : "" ∉ sources) (mem : source ∈ sources)
    (at_ : (ready source)[0]? = some b) (passed : b ∉ (takeTurns sources cursor ready).1) :
    (scheduledNotificationSources sources (takeTurns sources cursor ready).2).idxOf source+10 ≤ (scheduledNotificationSources sources cursor).idxOf source := by
  generalize rotation : scheduledNotificationSources sources cursor = order
  have nodup : order.Nodup := rotation ▸ scheduled_perm.nodup_iff.mpr distinct
  have inside : source ∈ order := rotation ▸ scheduled_perm.mem_iff.mpr mem
  let head : String → Option Batch := fun source => (ready source)[0]?
  have taken : (takeTurns sources cursor ready).1 = (order.filterMap head++ ranked (order.map ready) (range' 1 19)).take 10 := by
    rw [takeTurns,rotation,candidates_ranked]
    simp only [ranked,show range 20 = 0 :: range' 1 19 from rfl,flatMap_cons,filterMap_map,Function.comp_def,head]
  have there : b ∈ order.filterMap head := mem_filterMap.mpr ⟨source,inside,at_⟩
  have many : 9 < (order.filterMap head).length := by
    by_contra few
    exact passed (by rw [taken,take_append,take_of_length_le (by omega)]; exact mem_append_left _ there)
  obtain ⟨before,last,later,c,cut,here,same,long⟩ := filterMap_cut many
  rw [take_append_of_le_length many,same] at taken
  have own : c.sourceId = last := good.own _ _ (mem_of_getElem? here)
  have known : last ≠ "" := fun blank => named (blank ▸ scheduled_perm.mem_iff.mp (rotation ▸ cut ▸ mem_append_right _ mem_cons_self))
  have cursor' : (takeTurns sources cursor ready).2 = some last := by
    change (match (takeTurns sources cursor ready).1.getLast? with
      | some last => if last.sourceId = "" then cursor else some last.sourceId
      | none => cursor) = some last
    rw [taken,getLast?_concat]
    exact (if_neg (own ▸ known)).trans (congrArg some own)
  rw [cursor',scheduled_next distinct known (rotation.trans cut)]
  rw [taken] at passed
  subst cut
  have apart : source ∉ before ∧ source ≠ last := by
    refine ⟨fun early => passed (mem_append_left _ (mem_filterMap.mpr ⟨source,early,at_⟩)),fun is => ?_⟩
    cases is
    cases at_.symm.trans here
    exact passed (mem_append_right _ mem_cons_self)
  have late : source ∈ later := by
    rcases mem_append.mp inside with early | late
    · exact absurd early apart.1
    · exact (mem_cons.mp late).resolve_left apart.2
  rw [idxOf_append_of_notMem apart.1,idxOf_cons_ne _ apart.2.symm,append_assoc,idxOf_append_of_mem late]
  omega

-- The candidate one rank further back is taken after everything before it.
theorem rank_taken (next : (ready source)[rank+1]? = some b) (taken : b ∈ (takeTurns sources cursor ready).1) (other : String) (mem : other ∈ sources)
    (earlier : (ready other)[rank]? = some c) : c ∈ (takeTurns sources cursor ready).1 := by
  obtain ⟨below,_⟩ := List.getElem?_eq_some_iff.mp next
  have within : rank+1 < 20 := Nat.lt_of_lt_of_le below (good.small _)
  have cut : range 20 = range (rank+1)++(range (20-(rank+1))).map (rank+1+·) := by
    rw [←range_add]
    congr 1
    omega
  simp only [takeTurns,candidates_ranked,ranked,cut,flatMap_append] at taken ⊢
  obtain ⟨_,same,_⟩ := take_later taken fun early => by
    obtain ⟨at_,low,found⟩ := mem_flatMap.mp early
    obtain ⟨_,is,here⟩ := mem_filterMap.mp found
    obtain ⟨_,_,rfl⟩ := mem_map.mp is
    have same := (good.own _ _ (mem_of_getElem? here)).symm.trans (good.own _ _ (mem_of_getElem? next))
    subst same
    have twice := (nodup_iff_getElem?_ne_getElem?.mp (good.once _)) at_ (rank+1) (by simpa using low) below
    exact twice (here.trans next.symm)
  rw [same]
  refine mem_append_left _ (mem_flatMap.mpr ⟨rank,by simp,mem_filterMap.mpr ⟨_,mem_map_of_mem (scheduled_perm.mem_iff.mpr mem),earlier⟩⟩)

theorem taken_whole (distinct : sources.Nodup) : (takeTurns sources cursor ready).1.Nodup ∧
      (takeTurns sources cursor ready).1.length = min 10 (sources.flatMap ready).length := by
  have all : ranked ((scheduledNotificationSources sources cursor).map ready) (range 20) ~ sources.flatMap ready := by
    refine (ranked_perm fun group mem => ?_).trans (scheduled_perm.flatMap_right _)
    obtain ⟨_,_,rfl⟩ := mem_map.mp mem
    exact good.small _
  have once : (sources.flatMap ready).Nodup := by
    refine nodup_flatMap.mpr ⟨fun _ _ => good.once _,distinct.imp fun apart b first second => ?_⟩
    exact apart ((good.own _ _ first).symm.trans (good.own _ _ second))
  rw [takeTurns,candidates_ranked]
  exact ⟨(all.nodup_iff.mpr once).sublist (take_sublist _ _),by rw [length_take,all.length_eq]⟩
end

end LedgeTopOps.NotificationTurns
