import Mathlib.Data.List.Nodup

namespace LedgeTopOps.SnapshotFeeds
open List

-- A table that follows a feed of snapshots: the statements that write one are grouped by item and sent in batches,
-- and fingerprints of items and of whole snapshots say what may be left alone.
structure Head (ι σ : Type*) where
  fingerprint : Option ι
  missing : Nat
  status : σ
  vouched : Bool

inductive Write (κ ι ρ : Type*) where
  | correct (key : κ) (label : String)
  | part (item : ι) (piece : ρ)
  | mark (key : κ)
  | withdraw (key : κ)

-- `ended` are the items whose time has passed: their rows may be closed and deleted.
structure Feed (δ κ ι σ ρ : Type*) where
  key : ι → κ
  status : ι → σ
  head : δ → κ → Option (Head ι σ)
  stored : δ → List κ
  closed : σ → Bool
  group : ι → List ρ
  apply : Write κ ι ρ → δ → δ
  ended : Int → ι → Prop

section
variable {δ κ ι σ ρ : Type*} {feed : Feed δ κ ι σ ρ} {items : List ι}

def Write.key (feed : Feed δ κ ι σ ρ) : Write κ ι ρ → κ
  | .correct k _ => k
  | .part c _ => feed.key c
  | .mark k => k
  | .withdraw k => k

def Feed.run (feed : Feed δ κ ι σ ρ) (writes : List (Write κ ι ρ)) (db : δ) : δ := writes.foldl (fun current w => feed.apply w current) db
def Feed.parts (feed : Feed δ κ ι σ ρ) (c : ι) : List (Write κ ι ρ) := (feed.group c).map (.part c)

structure Laws (feed : Feed δ κ ι σ ρ) : Prop where
  apart : ∀ w db k, k ≠ w.key feed → feed.head (feed.apply w db) k = feed.head db k
  full : ∀ c db, feed.head (feed.run (feed.parts c) db) (feed.key c) = some ⟨some c,0,feed.status c,true⟩
  later : ∀ c (now after : Int), feed.ended now c → now ≤ after → feed.ended after c

theorem run_append (first second : List (Write κ ι ρ)) (db : δ) : feed.run (first++second) db = feed.run second (feed.run first db) :=
  foldl_append ..

theorem run_preserves (holds : δ → Prop) (kept : ∀ w ∈ writes, ∀ db, holds db → holds (feed.apply w db)) (start : holds db) : holds (feed.run writes db) := by
  induction writes generalizing db with
  | nil => exact start
  | cons w _ ih => exact ih (fun x mem => kept x (mem_cons_of_mem _ mem)) (kept w mem_cons_self db start)

theorem run_apart (laws : Laws feed) (others : ∀ w ∈ writes, k ≠ w.key feed) : feed.head (feed.run writes db) k = feed.head db k :=
  run_preserves (fun current => feed.head current k = feed.head db k)
    (fun w mem current same => (laws.apart w current k (others w mem)).trans same) rfl

theorem run_groups (holds : δ → Prop) (groups : ι → List (Write κ ι ρ))
    (kept : ∀ c ∈ items, ∀ n db, holds db → holds (feed.run ((groups c).take n) db)) (start : holds db) (n : Nat) :
    holds (feed.run ((items.flatMap groups).take n) db) := by
  induction items generalizing db n with
  | nil =>
    rw [flatMap_nil,take_nil]
    exact start
  | cons c _ ih =>
    rw [flatMap_cons,take_append,run_append]
    exact ih (fun d mem => kept d (mem_cons_of_mem _ mem)) (kept c mem_cons_self n db start) _

theorem mem_parts (mem : w ∈ feed.parts c) : ∃ p ∈ feed.group c, w = .part c p := by
  obtain ⟨p,there,rfl⟩ := mem_map.mp mem
  exact ⟨p,there,rfl⟩
end

section
variable {δ κ ι σ ρ : Type*} [DecidableEq κ] [DecidableEq ι] {feed : Feed δ κ ι σ ρ}

def Feed.unchanged (feed : Feed δ κ ι σ ρ) (db : δ) (c : ι) : Bool :=
  (feed.head db (feed.key c)).any fun h => h.fingerprint = some c && h.missing = 0

def Feed.rewriting (feed : Feed δ κ ι σ ρ) (db : δ) (items : List ι) : List (Write κ ι ρ) :=
  items.flatMap fun c => if feed.unchanged db c then [] else feed.parts c

def Feed.absence (feed : Feed δ κ ι σ ρ) (db : δ) (items : List ι) (k : κ) : List (Write κ ι ρ) :=
  match feed.head db k with
  | none => []
  | some h => if k ∈ items.map feed.key ∨ feed.closed h.status = true then []
    else if h.missing < 1 then [.mark k] else [.withdraw k]

def Feed.writes (feed : Feed δ κ ι σ ρ) (db : δ) (corrections : List (κ × String)) (items : List ι) : List (Write κ ι ρ) :=
  corrections.map (fun c => .correct c.1 c.2)++feed.rewriting db items++(feed.stored db).flatMap (feed.absence db items)

def Write.marks : Write κ ι ρ → Bool
  | .mark _ => true
  | _ => false

-- The fingerprint of a whole snapshot, marked as pending while an absence is counted.
structure Recorded (ι : Type*) where
  pending : Bool
  items : List ι
  deriving DecidableEq

-- `touched` are the keys written since the recording, `last` the keys of the snapshot processed
-- last, and `unreached` those of them whose statements were cut off. No program reads these.
structure Following (δ κ ι : Type*) where
  db : δ
  recorded : Option (Recorded ι)
  touched : List κ
  last : Option (List κ)
  unreached : List κ

def Following.skips (s : Following δ κ ι) (corrections : List (κ × String)) (items : List ι) : Bool :=
  s.recorded = some ⟨false,items⟩ && corrections.isEmpty

-- A refresh of which the first `reach` batches of `size` statements take effect; `finished` says
-- that the recording after them does too.
def Feed.refresh (feed : Feed δ κ ι σ ρ) (size : Nat) (s : Following δ κ ι) (corrections : List (κ × String)) (items : List ι) (reach : Nat)
    (finished : Bool) : Following δ κ ι :=
  if s.skips corrections items then
    if finished then { s with last := some (items.map feed.key), unreached := (items.map feed.key).filter (· ∈ s.touched) } else s
  else
    let writes := feed.writes s.db corrections items
    let done := writes.take (size * reach)
    if writes.length ≤ size * reach ∧ finished = true then
      ⟨feed.run done s.db,some ⟨writes.any Write.marks,items⟩,[],some (items.map feed.key),[]⟩
    else if done.isEmpty then s
    else { s with
      db := feed.run done s.db
      touched := done.map (Write.key feed)++s.touched
      last := some (items.map feed.key)
      unreached := (items.map feed.key).filter (· ∈ (writes.drop (size * reach)).map (Write.key feed)) }

def Feed.returns (feed : Feed δ κ ι σ ρ) (size : Nat) (s : Following δ κ ι) (corrections : List (κ × String)) (items : List ι) (reach : Nat)
    (finished : Bool) : Bool :=
  finished && (s.skips corrections items || (feed.writes s.db corrections items).length ≤ size * reach)

variable {db : δ} {items : List ι} {corrections : List (κ × String)} {k : κ} {c : ι}

omit [DecidableEq κ] in
theorem unchanged_head (same : feed.unchanged db c) : ∃ h, feed.head db (feed.key c) = some h ∧ h.fingerprint = some c ∧ h.missing = 0 := by
  obtain ⟨h,is,facts⟩ := (Option.any_eq_true _ _).mp same
  rw [Bool.and_eq_true,decide_eq_true_eq,decide_eq_true_eq] at facts
  exact ⟨h,is,facts⟩

omit [DecidableEq κ] in
theorem mem_rewriting : w ∈ feed.rewriting db items ↔ ∃ c ∈ items, feed.unchanged db c = false ∧ w ∈ feed.parts c := by
  unfold Feed.rewriting
  rw [mem_flatMap]
  refine exists_congr fun c => and_congr_right fun _ => ?_
  split
  · rename_i same
    rw [same]
    exact ⟨fun mem => (not_mem_nil mem).elim,fun both => (nomatch both.1)⟩
  rename_i differs
  exact ⟨fun mem => ⟨Bool.not_eq_true _ ▸ differs,mem⟩,fun both => both.2⟩

omit [DecidableEq ι] in
theorem mem_absence (mem : w ∈ feed.absence db items k) : k ∉ items.map feed.key ∧
    ∃ h, feed.head db k = some h ∧ feed.closed h.status = false ∧ ((w = .mark k ∧ h.missing < 1) ∨ (w = .withdraw k ∧ 1 ≤ h.missing)) := by
  unfold Feed.absence at mem
  split at mem
  · exact (not_mem_nil mem).elim
  rename_i h is
  split at mem
  · exact (not_mem_nil mem).elim
  rename_i apart
  rw [not_or,Bool.not_eq_true] at apart
  refine ⟨apart.1,h,is,apart.2,?_⟩
  split at mem
  · rename_i first
    exact .inl ⟨mem_singleton.mp mem,first⟩
  rename_i again
  exact .inr ⟨mem_singleton.mp mem,Nat.le_of_not_lt again⟩

theorem mem_writes (mem : w ∈ feed.writes db corrections items) :
    (∃ c ∈ corrections, w = .correct c.1 c.2) ∨ (∃ c ∈ items, feed.unchanged db c = false ∧ w ∈ feed.parts c) ∨ ∃ k, w ∈ feed.absence db items k := by
  rcases mem_append.mp mem with early | absent
  · rcases mem_append.mp early with corrected | rewritten
    · obtain ⟨c,there,rfl⟩ := mem_map.mp corrected
      exact .inl ⟨c,there,rfl⟩
    · exact .inr (.inl (mem_rewriting.mp rewritten))
  obtain ⟨k,_,there⟩ := mem_flatMap.mp absent
  exact .inr (.inr ⟨k,there⟩)

omit [DecidableEq ι] in
theorem absence_key (mem : w ∈ feed.absence db items k) : w.key feed = k := by
  obtain ⟨_,_,_,_,⟨rfl,_⟩ | ⟨rfl,_⟩⟩ := mem_absence mem
  · rfl
  rfl

variable (distinct : (items.map feed.key).Nodup) (foreign : ∀ c ∈ corrections, c.1 ∉ items.map feed.key)

include distinct foreign in
theorem own_writes (listed : c ∈ items) (mem : w ∈ feed.writes db corrections items) (same : feed.key c = w.key feed) :
    feed.unchanged db c = false ∧ w ∈ feed.parts c := by
  rcases mem_writes mem with ⟨d,there,rfl⟩ | ⟨d,there,differs,part⟩ | ⟨k,absent⟩
  · exact absurd (mem_map.mpr ⟨c,listed,same⟩) (foreign d there)
  · obtain ⟨p,_,rfl⟩ := mem_parts part
    cases inj_on_of_nodup_map distinct listed there same
    exact ⟨differs,part⟩
  have key := absence_key absent
  exact absurd (mem_map.mpr ⟨c,listed,same.trans key⟩) (mem_absence absent).1

include distinct foreign in
theorem writes_settle (holds : δ → Prop) (listed : c ∈ items) (start : feed.unchanged db c → holds db) (own : ∀ db, holds (feed.run (feed.parts c) db))
    (others : ∀ w ∈ feed.writes db corrections items, feed.key c ≠ w.key feed → ∀ db, holds db → holds (feed.apply w db)) :
    holds (feed.run (feed.writes db corrections items) db) := by
  cases same : feed.unchanged db c with
  | true =>
    refine run_preserves holds (fun w mem => others w mem fun key => ?_) (start same)
    have own := (own_writes distinct foreign listed mem key).1
    rw [same] at own
    cases own
  | false =>
    obtain ⟨before,after,rfl⟩ := append_of_mem listed
    have split : feed.writes db corrections (before++c :: after) =
        (corrections.map (fun c => Write.correct c.1 c.2)++feed.rewriting db before)++(feed.parts c ++
          (feed.rewriting db after++(feed.stored db).flatMap (feed.absence db (before++c :: after)))) := by
      unfold Feed.writes Feed.rewriting
      rw [flatMap_append,flatMap_cons,same]
      simp only [Bool.false_eq_true,if_false,append_assoc]
    have apart : ∀ d ∈ after, feed.key c ≠ feed.key d := by
      rw [map_append,map_cons] at distinct
      have tail := (nodup_append.mp distinct).2.1
      exact fun d mem key => (nodup_cons.mp tail).1 (mem_map.mpr ⟨d,mem,key.symm⟩)
    have rest : ∀ w ∈ feed.rewriting db after++(feed.stored db).flatMap (feed.absence db (before++c :: after)), feed.key c ≠ w.key feed :=
      fun w mem => by
        rcases mem_append.mp mem with rewritten | absent
        · obtain ⟨d,there,_,part⟩ := mem_rewriting.mp rewritten
          obtain ⟨p,_,rfl⟩ := mem_parts part
          exact apart d there
        obtain ⟨k,_,there⟩ := mem_flatMap.mp absent
        rw [absence_key there]
        exact fun key => (mem_absence there).1 (mem_map.mpr ⟨c,listed,key⟩)
    rw [split,run_append,run_append]
    refine run_preserves holds (fun w mem => others w ?_ (rest w mem)) (own _)
    rw [split]
    exact mem_append_right _ (mem_append_right _ mem)

include distinct foreign in
theorem writes_head (laws : Laws feed) (listed : c ∈ items) :
    (feed.unchanged db c = false ∧ feed.head (feed.run (feed.writes db corrections items) db) (feed.key c) = some ⟨some c,0,feed.status c,true⟩) ∨
      (feed.unchanged db c ∧ feed.head (feed.run (feed.writes db corrections items) db) (feed.key c) = feed.head db (feed.key c)) := by
  cases same : feed.unchanged db c with
  | true =>
    refine .inr ⟨rfl,run_apart laws fun w mem key => ?_⟩
    have own := (own_writes distinct foreign listed mem key).1
    rw [same] at own
    cases own
  | false =>
    refine .inl ⟨rfl,writes_settle distinct foreign (fun current => feed.head current (feed.key c) = some ⟨some c,0,feed.status c,true⟩) listed
      (fun is => ?_) (laws.full c) fun w mem apart current held => (laws.apart w current _ apart).trans held⟩
    rw [same] at is
    cases is
end

variable {δ κ ι σ ρ : Type*} [DecidableEq κ] [DecidableEq ι] {feed : Feed δ κ ι σ ρ} {now : Int} {s : Following δ κ ι} {db : δ}
  {items : List ι} {corrections : List (κ × String)} {size reach : Nat} {finished : Bool} {k : κ} {c : ι}

def Held (feed : Feed δ κ ι σ ρ) (now : Int) (db : δ) (c : ι) : Prop :=
  (∃ h, feed.head db (feed.key c) = some h ∧ h.fingerprint = some c ∧ h.missing = 0 ∧ (h.vouched = true ∨ feed.ended now c)) ∨
    (feed.head db (feed.key c) = none ∧ feed.ended now c)

structure Sound (feed : Feed δ κ ι σ ρ) (now : Int) (s : Following δ κ ι) : Prop where
  held : ∀ items, s.recorded = some ⟨false,items⟩ → ∀ c ∈ items, feed.key c ∉ s.touched → Held feed now s.db c
  counted : ∀ k h, feed.head s.db k = some h → 1 ≤ h.missing → feed.closed h.status = false →
    ∃ keys, s.last = some keys ∧ (k ∉ keys ∨ k ∈ s.unreached)

-- What a refresh leaves alone, it may: nothing was cut off there since the fingerprint it trusts; and no row is
-- withdrawn that the last refresh listed and did not reach.
structure Meets (feed : Feed δ κ ι σ ρ) (now : Int) (s : Following δ κ ι) (corrections : List (κ × String)) (items : List ι) : Prop where
  whole : s.skips corrections items = true → ∀ c ∈ items, ¬feed.ended now c → feed.key c ∉ s.touched
  vouched : s.skips corrections items = false → ∀ c ∈ items, ¬feed.ended now c → feed.unchanged s.db c = true →
    ∀ h, feed.head s.db (feed.key c) = some h → h.vouched = true
  absent : s.skips corrections items = false → ∀ k h, feed.head s.db k = some h → k ∉ items.map feed.key → k ∈ s.unreached →
    1 ≤ h.missing → feed.closed h.status = true

omit [DecidableEq κ] in
theorem skips_recorded (skips : s.skips corrections items) : s.recorded = some ⟨false,items⟩ := by
  unfold Following.skips at skips
  rw [Bool.and_eq_true,decide_eq_true_eq] at skips
  exact skips.1

theorem refresh_run (feed : Feed δ κ ι σ ρ) (size : Nat) (s : Following δ κ ι) (corrections : List (κ × String)) (items : List ι) (reach : Nat)
    (finished : Bool) : (feed.refresh size s corrections items reach finished).db = s.db ∨ (s.skips corrections items = false ∧
    ∃ n, (feed.refresh size s corrections items reach finished).db = feed.run ((feed.writes s.db corrections items).take n) s.db) := by
  unfold Feed.refresh
  split
  · refine .inl ?_
    split
    · rfl
    rfl
  rename_i fresh
  rw [Bool.not_eq_true] at fresh
  dsimp only
  split
  · exact .inr ⟨fresh,_,rfl⟩
  split
  · exact .inl rfl
  exact .inr ⟨fresh,_,rfl⟩

theorem withdraw_absent (sound : Sound feed now s) (meets : Meets feed now s corrections items) (fresh : s.skips corrections items = false)
    (withdrawn : .withdraw k ∈ feed.writes s.db corrections items) : k ∉ items.map feed.key ∧ ∃ keys, s.last = some keys ∧ k ∉ keys := by
  rcases mem_writes withdrawn with ⟨_,_,other⟩ | ⟨_,_,_,part⟩ | ⟨key,absent⟩
  · cases other
  · obtain ⟨_,_,other⟩ := mem_parts part
    cases other
  obtain ⟨apart,h,found,isOpen,⟨other,_⟩ | ⟨same,counted⟩⟩ := mem_absence absent
  · cases other
  cases same
  obtain ⟨keys,last,missing | cut⟩ := sound.counted k h found counted isOpen
  · exact ⟨apart,keys,last,missing⟩
  have shut := meets.absent fresh k h found apart cut counted
  rw [isOpen] at shut
  cases shut

section
variable (laws : Laws feed) (distinct : (items.map feed.key).Nodup) (foreign : ∀ c ∈ corrections, c.1 ∉ items.map feed.key)
include laws distinct foreign

theorem complete_held (meets : Meets feed now s corrections items) (fresh : s.skips corrections items = false) (listed : c ∈ items) :
    ∃ h, feed.head (feed.run (feed.writes s.db corrections items) s.db) (feed.key c) = some h ∧ h.fingerprint = some c ∧ h.missing = 0 ∧
      (h.vouched ∨ feed.ended now c) := by
  rcases writes_head distinct foreign laws listed with ⟨_,is⟩ | ⟨same,is⟩
  · exact ⟨_,is,rfl,rfl,.inl rfl⟩
  obtain ⟨h,found,own,missing⟩ := unchanged_head same
  refine ⟨h,is.trans found,own,missing,?_⟩
  by_cases past : feed.ended now c
  · exact .inr past
  exact .inl (meets.vouched fresh c listed past same h found)

omit distinct foreign in
theorem reached_head (n : Nat) (done : k ∉ ((feed.writes db corrections items).drop n).map (Write.key feed)) :
    feed.head (feed.run ((feed.writes db corrections items).take n) db) k = feed.head (feed.run (feed.writes db corrections items) db) k := by
  have split : feed.run (feed.writes db corrections items) db =
      feed.run ((feed.writes db corrections items).drop n) (feed.run ((feed.writes db corrections items).take n) db) := by
    rw [←run_append,take_append_drop]
  rw [split,run_apart laws fun w mem key => done (mem_map.mpr ⟨w,mem,key.symm⟩)]

section
variable (sound : Sound feed now s) (meets : Meets feed now s corrections items)
include sound meets

theorem refresh_sound : Sound feed now (feed.refresh size s corrections items reach finished) := by
  unfold Feed.refresh
  split
  · rename_i skips
    split
    · refine ⟨sound.held,fun k h is counted isOpen => ⟨_,rfl,?_⟩⟩
      by_cases listed : k ∈ items.map feed.key
      · refine .inr (mem_filter.mpr ⟨listed,decide_eq_true ?_⟩)
        by_contra untouched
        obtain ⟨c,there,rfl⟩ := mem_map.mp listed
        rcases sound.held items (skips_recorded skips) c there untouched with ⟨own,found,_,none,_⟩ | ⟨gone,_⟩
        · cases found.symm.trans is
          omega
        cases gone.symm.trans is
      exact .inl listed
    exact sound
  rename_i fresh
  rw [Bool.not_eq_true] at fresh
  dsimp only
  split
  · rename_i ends
    rw [take_of_length_le ends.1]
    refine ⟨fun recorded is c mem _ => ?_,fun k h is counted isOpen => ⟨_,rfl,.inl fun listed => ?_⟩⟩
    · cases congrArg Recorded.items (Option.some.inj is)
      exact .inl (complete_held laws distinct foreign meets fresh mem)
    obtain ⟨c,there,rfl⟩ := mem_map.mp listed
    obtain ⟨own,found,_,none,_⟩ := complete_held laws distinct foreign meets fresh there
    cases found.symm.trans is
    omega
  split
  · exact sound
  · refine ⟨fun recorded is c mem untouched => ?_,fun k h is counted isOpen => ⟨_,rfl,?_⟩⟩
    · have clean : feed.key c ∉ ((feed.writes s.db corrections items).take (size * reach)).map (Write.key feed) :=
        fun there => untouched (mem_append_left _ there)
      have same : feed.head (feed.run ((feed.writes s.db corrections items).take (size * reach)) s.db) (feed.key c) = feed.head s.db (feed.key c) :=
        run_apart laws fun w there key => clean (mem_map.mpr ⟨w,there,key.symm⟩)
      have before := sound.held recorded is c mem fun there => untouched (mem_append_right _ there)
      unfold Held at before ⊢
      rw [same]
      exact before
    · by_cases listed : k ∈ items.map feed.key
      · refine .inr (mem_filter.mpr ⟨listed,decide_eq_true ?_⟩)
        by_contra done
        obtain ⟨c,there,rfl⟩ := mem_map.mp listed
        obtain ⟨own,found,_,none,_⟩ := complete_held laws distinct foreign meets fresh there
        rw [reached_head laws _ done] at is
        cases found.symm.trans is
        omega
      · exact .inl listed

theorem refresh_stored (returns : feed.returns size s corrections items reach finished) (listed : c ∈ items) (current : ¬feed.ended now c) :
    ∃ h, feed.head (feed.refresh size s corrections items reach finished).db (feed.key c) = some h ∧ h.fingerprint = some c ∧ h.missing = 0 ∧ h.vouched := by
  unfold Feed.returns at returns
  rw [Bool.and_eq_true,Bool.or_eq_true,decide_eq_true_eq] at returns
  unfold Feed.refresh
  split
  · rename_i skips
    rw [if_pos returns.1]
    rcases sound.held items (skips_recorded skips) c listed (meets.whole skips c listed current) with ⟨h,found,own,missing,whole⟩ | ⟨_,past⟩
    · exact ⟨h,found,own,missing,whole.resolve_right current⟩
    exact absurd past current
  rename_i fresh
  have long := returns.2.resolve_left fresh
  rw [Bool.not_eq_true] at fresh
  rw [if_pos ⟨long,returns.1⟩,take_of_length_le long]
  obtain ⟨h,found,own,missing,whole⟩ := complete_held laws distinct foreign meets fresh listed
  exact ⟨h,found,own,missing,whole.resolve_right current⟩
end
end

omit [DecidableEq κ] [DecidableEq ι] in
theorem later_sound (laws : Laws feed) {after : Int} (sound : Sound feed now s) (more : now ≤ after) : Sound feed after s := by
  refine ⟨fun items is c mem untouched => ?_,sound.counted⟩
  rcases sound.held items is c mem untouched with ⟨h,found,own,missing,whole⟩ | ⟨gone,past⟩
  · exact .inl ⟨h,found,own,missing,whole.imp_right fun past => laws.later c now after past more⟩
  exact .inr ⟨gone,laws.later c now after past more⟩

omit [DecidableEq κ] [DecidableEq ι] in
theorem purge_sound {after : δ} (sound : Sound feed now s)
    (kept : ∀ k, feed.head after k = none ∨ ∃ h status, feed.head s.db k = some h ∧ feed.head after k = some { h with status := status } ∧
      (status = h.status ∨ feed.closed status))
    (past : ∀ c h, feed.head s.db (feed.key c) = some h → h.fingerprint = some c → h.missing = 0 → h.vouched →
      feed.head after (feed.key c) = none → feed.ended now c) : Sound feed now { s with db := after } := by
  refine ⟨fun items is c mem untouched => ?_,fun k h is counted isOpen => ?_⟩
  · rcases sound.held items is c mem untouched with ⟨h,found,own,missing,whole⟩ | ⟨gone,ended⟩
    · rcases kept (feed.key c) with none | ⟨_,status,same,there,_⟩
      · exact .inr ⟨none,whole.elim (fun whole => past c h found own missing whole none) fun ended => ended⟩
      · cases found.symm.trans same
        exact .inl ⟨_,there,own,missing,whole⟩
    · rcases kept (feed.key c) with none | ⟨_,_,same,_,_⟩
      · exact .inr ⟨none,ended⟩
      · cases gone.symm.trans same
  rcases kept k with none | ⟨before,status,found,there,same | shut⟩
  · cases none.symm.trans is
  · cases there.symm.trans is
    cases same
    exact sound.counted k before found counted isOpen
  · cases there.symm.trans is
    rw [isOpen] at shut
    cases shut
end LedgeTopOps.SnapshotFeeds
