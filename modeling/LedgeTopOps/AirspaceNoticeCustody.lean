import LedgeTopOps.AirspaceNotices
import LedgeTopOps.UpsertedRows

namespace LedgeTopOps.Airspace
open List SnapshotFeeds KeyedRows UpsertedRows

section
variable {ρ : Type} {k : String}

theorem amend_apart (same : ∀ r, key (change r) = key r) (apart : wanted ≠ k) : find key (amend key rows k change) wanted = find key rows wanted := by
  rw [find_amend same]
  cases found : find key rows wanted with
  | none => rfl
  | some =>
    have named := (find_some found).2
    rw [Option.map_some,if_neg fun is => apart (named.symm.trans is)]
end

section
variable {c : Notice}

theorem upsert_rows (c : Notice) (rows : List NoticeRow) : c.upsert rows = upsert NoticeRow.key rows (c.row c.status 0 none) c.write := rfl

theorem upsert_apart (apart : k ≠ c.key) : find NoticeRow.key (c.upsert rows) k = find NoticeRow.key rows k := by
  rw [upsert_rows]
  exact find_upsert_apart (fun _ => rfl) apart

theorem upsert_own (rows : List NoticeRow) : ∃ fingerprint, find NoticeRow.key (c.upsert rows) c.key = some (c.row c.status 0 fingerprint) := by
  have written : ∀ r : NoticeRow, r.key = c.key → ∃ fingerprint, c.write r = c.row c.status 0 fingerprint := fun r named =>
    ⟨r.fingerprint,by rw [Notice.write,named]; rfl⟩
  have own : ∃ r, find NoticeRow.key (upsert NoticeRow.key rows (c.row c.status 0 none) c.write) c.key = some r ∧
    ∃ fingerprint, r = c.row c.status 0 fingerprint := find_upsert_own (fun _ => rfl) ⟨none,rfl⟩ written
  obtain ⟨_,found,fingerprint,rfl⟩ := own
  exact ⟨fingerprint,found⟩

theorem head_same {after : Notices} (rows : find NoticeRow.key after.rows k = find NoticeRow.key db.rows k) (half : k ∈ after.half ↔ k ∈ db.half) :
    tfrFeed.head after k = tfrFeed.head db k := by
  show (find NoticeRow.key after.rows k).map (fun r => (⟨r.fingerprint,r.missing,r.status,decide (k ∉ after.half)⟩ : Head Notice NoticeStatus)) = _
  rw [rows,decide_eq_decide.mpr (not_congr half)]
  rfl

theorem half_apart {half : List String} (apart : k ≠ c.key) : k ∈ half.insert c.key ↔ k ∈ half := by
  rw [mem_insert_iff]
  exact ⟨fun either => either.resolve_left apart,.inr⟩

theorem piece_apart (p : Piece) (apart : k ≠ c.key) : tfrFeed.head (db.piece c p) k = tfrFeed.head db k := by
  cases p with
  | upsert => exact head_same (upsert_apart apart) (half_apart apart)
  | vouch =>
    have same : ∀ r : NoticeRow, ({ r with fingerprint := some c } : NoticeRow).key = r.key := fun _ => rfl
    refine head_same (amend_apart same apart) ?_
    show k ∈ db.half.filter (· ≠ c.key) ↔ _
    rw [mem_filter]
    exact ⟨fun both => both.1,fun there => ⟨there,decide_eq_true apart⟩⟩
  | _ => exact head_same rfl (half_apart apart)

theorem run_middle (db : Notices) (pieces : List Piece) (middle : ∀ p ∈ pieces, (∃ i, p = .interval i) ∨ ∃ g, p = .geometry g) (begun : c.key ∈ db.half) :
    (tfrFeed.run (pieces.map (.part c)) db).rows = db.rows ∧ (tfrFeed.run (pieces.map (.part c)) db).half = db.half := by
  induction pieces generalizing db with
  | nil => exact ⟨rfl,rfl⟩
  | cons p _ ih =>
    have step : (db.piece c p).rows = db.rows ∧ (db.piece c p).half = db.half := by
      rcases middle p mem_cons_self with ⟨i,rfl⟩ | ⟨g,rfl⟩
      · exact ⟨rfl,insert_of_mem begun⟩
      exact ⟨rfl,insert_of_mem begun⟩
    obtain ⟨rows,half⟩ := ih (db.piece c p) (fun q mem => middle q (mem_cons_of_mem _ mem)) (by rw [step.2]; exact begun)
    exact ⟨rows.trans step.1,half.trans step.2⟩

theorem run_intervals (c : Notice) (db : Notices) (intervals : List Interval) : (tfrFeed.run ((intervals.map Piece.interval).map (.part c)) db).intervals =
      db.intervals++intervals.map (c.key,·) ∧ (tfrFeed.run ((intervals.map Piece.interval).map (.part c)) db).geometries = db.geometries := by
  induction intervals generalizing db with
  | nil => exact ⟨(append_nil _).symm,rfl⟩
  | cons i _ ih =>
    obtain ⟨first,second⟩ := ih (db.piece c (.interval i))
    refine ⟨first.trans ?_,second⟩
    show (db.intervals++[(c.key,i)])++_ = _
    rw [append_assoc]
    rfl

theorem run_geometries (c : Notice) (db : Notices) (geometries : List String) : (tfrFeed.run ((geometries.map Piece.geometry).map (.part c)) db).geometries =
      db.geometries++geometries.map (c.key,·) ∧ (tfrFeed.run ((geometries.map Piece.geometry).map (.part c)) db).intervals = db.intervals := by
  induction geometries generalizing db with
  | nil => exact ⟨(append_nil _).symm,rfl⟩
  | cons g _ ih =>
    obtain ⟨first,second⟩ := ih (db.piece c (.geometry g))
    refine ⟨first.trans ?_,second⟩
    show (db.geometries++[(c.key,g)])++_ = _
    rw [append_assoc]
    rfl

theorem group_run (c : Notice) (db : Notices) : tfrFeed.run (tfrFeed.parts c) db =
    { rows := amend NoticeRow.key (c.upsert db.rows) c.key fun r => { r with fingerprint := some c }
      intervals := db.intervals.filter (·.1 ≠ c.key)++c.intervals.map (c.key,·)
      geometries := db.geometries.filter (·.1 ≠ c.key)++c.geometries.map (c.key,·)
      half := (db.half.insert c.key).filter (· ≠ c.key) } := by
  have split : tfrFeed.parts c = [.part c .upsert,.part c .clearIntervals,.part c .clearGeometries] ++
      ((c.intervals.map Piece.interval).map (.part c)++((c.geometries.map Piece.geometry).map (.part c)++[.part c .vouch])) := by
    show (Notice.group c).map _ = _
    unfold Notice.group
    simp only [map_append,append_assoc]
    rfl
  rw [split,run_append,run_append,run_append]
  have begun : c.key ∈ (tfrFeed.run [.part c .upsert,.part c .clearIntervals,.part c .clearGeometries] db).half := mem_insert_self
  have start : tfrFeed.run [.part c .upsert,.part c .clearIntervals,.part c .clearGeometries] db =
      { rows := c.upsert db.rows, intervals := db.intervals.filter (·.1 ≠ c.key), geometries := db.geometries.filter (·.1 ≠ c.key)
        half := db.half.insert c.key } := by
    show (⟨_,_,_,((db.half.insert c.key).insert c.key).insert c.key⟩ : Notices) = _
    rw [insert_of_mem (mem_insert_of_mem mem_insert_self),insert_of_mem mem_insert_self]
    rfl
  rw [start] at begun ⊢
  generalize first : (⟨c.upsert db.rows,_,_,db.half.insert c.key⟩ : Notices) = begin_ at begun ⊢
  obtain ⟨rows,half⟩ := run_middle (c := c) begin_ (c.intervals.map Piece.interval) (fun p mem => by
    obtain ⟨i,_,rfl⟩ := mem_map.mp mem
    exact .inl ⟨i,rfl⟩) begun
  obtain ⟨intervals,geometries⟩ := run_intervals c begin_ c.intervals
  generalize tfrFeed.run ((c.intervals.map Piece.interval).map (.part c)) begin_ = second at rows half intervals geometries ⊢
  obtain ⟨rows',half'⟩ := run_middle (c := c) second (c.geometries.map Piece.geometry) (fun p mem => by
    obtain ⟨g,_,rfl⟩ := mem_map.mp mem
    exact .inr ⟨g,rfl⟩) (by rw [half]; exact begun)
  obtain ⟨geometries',intervals'⟩ := run_geometries c second c.geometries
  generalize tfrFeed.run ((c.geometries.map Piece.geometry).map (.part c)) second = third at rows' half' intervals' geometries' ⊢
  show ({ third with
    rows := amend NoticeRow.key third.rows c.key fun r => { r with fingerprint := some c }
    half := third.half.filter (· ≠ c.key) } : Notices) = _
  rw [rows',half',rows,half,intervals',intervals,geometries',geometries,←first]

theorem tfr_full (c : Notice) (db : Notices) : tfrFeed.head (tfrFeed.run (tfrFeed.parts c) db) (tfrFeed.key c) = some ⟨some c,0,tfrFeed.status c,true⟩ := by
  rw [group_run]
  obtain ⟨fingerprint,found⟩ := upsert_own (c := c) db.rows
  have same : ∀ r : NoticeRow, ({ r with fingerprint := some c } : NoticeRow).key = r.key := fun _ => rfl
  show (find NoticeRow.key (amend NoticeRow.key (c.upsert db.rows) c.key _) c.key).map _ = _
  have own : (c.row c.status 0 fingerprint).key = c.key := rfl
  rw [find_amend same,found,Option.map_some,if_pos own,Option.map_some]
  have whole : c.key ∉ (db.half.insert c.key).filter (· ≠ c.key) := fun there => (of_decide_eq_true (mem_filter.mp there).2) rfl
  show some (⟨some c,0,c.status,decide (c.key ∉ (db.half.insert c.key).filter (· ≠ c.key))⟩ : Head Notice NoticeStatus) = _
  rw [decide_eq_true whole]
  rfl

theorem tfr_laws : Laws tfrFeed where
  apart w db k apart := by
    cases w with
    | correct key label =>
      have same : ∀ r : NoticeRow, ({ r with state := some label, fingerprint := none } : NoticeRow).key = r.key := fun _ => rfl
      exact head_same (amend_apart same apart) .rfl
    | part _ p => exact piece_apart p apart
    | mark key =>
      have same : ∀ r : NoticeRow, ({ r with missing := 1 } : NoticeRow).key = r.key := fun _ => rfl
      exact head_same (amend_apart same apart) .rfl
    | withdraw key =>
      have same : ∀ r : NoticeRow, ({ r with missing := r.missing + 1, status := .withdrawn } : NoticeRow).key = r.key := fun _ => rfl
      exact head_same (amend_apart same apart) .rfl
  full := tfr_full
  later c now after past more := by
    rcases past with expired | ⟨stop,is,less⟩
    · exact .inl expired
    exact .inr ⟨stop,is,Int.lt_of_lt_of_le less more⟩
end

structure Kept (now : Int) (db : Notices) (c : Notice) (r : NoticeRow) : Prop where
  row : r = c.row r.status r.missing r.fingerprint
  intervals : db.intervalsOf r.key = c.intervals
  geometries : db.geometriesOf r.key = c.geometries
  status : r.missing = 0 → r.status = c.status ∨ (r.status = .expired ∧ c.ended now)

structure Vouches (now : Int) (db : Notices) : Prop where
  keyed : Keyed NoticeRow.key db.rows
  kept : ∀ r ∈ db.rows, ∀ c, r.fingerprint = some c → r.key ∉ db.half → Kept now db c r

variable {now : Int} {db : Notices} {c : Notice} {k : String}

theorem amend_vouches (vouches : Vouches now db) (same : ∀ r, (change r).key = r.key)
    (kept : ∀ r c, (change r).fingerprint = some c → r.fingerprint = some c ∧ (change r).missing ≠ 0 ∧
      ∀ status missing fingerprint, r = c.row status missing fingerprint → change r = c.row (change r).status (change r).missing (change r).fingerprint) :
    Vouches now { db with rows := amend NoticeRow.key db.rows k change } := by
  refine ⟨vouches.keyed.amend change fun r _ _ => same r,fun r mem d own whole => ?_⟩
  rcases mem_amend.mp mem with ⟨old,_⟩ | ⟨old,there,_,rfl⟩
  · have before := vouches.kept r old d own whole
    exact ⟨before.row,before.intervals,before.geometries,before.status⟩
  obtain ⟨was,counted,columns⟩ := kept old d own
  rw [same] at whole
  have before := vouches.kept old there d was whole
  refine ⟨columns _ _ _ before.row,?_,?_,fun none => absurd none counted⟩
  · rw [same]
    exact before.intervals
  rw [same]
  exact before.geometries

theorem others_of (apart : k ≠ c.key) {α : Type} (rows : List (String × α)) (fresh : List α) :
    ((rows++fresh.map (c.key,·)).filter (·.1 = k)).map (·.2) = (rows.filter (·.1 = k)).map (·.2) := by
  have none : (fresh.map (c.key,·)).filter (·.1 = k) = [] := filter_eq_nil_iff.mpr fun x mem is => by
    obtain ⟨y,_,rfl⟩ := mem_map.mp mem
    exact apart (of_decide_eq_true is).symm
  rw [filter_append,none,append_nil]

theorem others_cleared (apart : k ≠ c.key) {α : Type} (rows : List (String × α)) :
    ((rows.filter (·.1 ≠ c.key)).filter (·.1 = k)).map (·.2) = (rows.filter (·.1 = k)).map (·.2) := by
  rw [filter_filter]
  refine congrArg (map _) (filter_congr fun x _ => ?_)
  by_cases here : x.1 = k
  · rw [here,decide_eq_true apart,Bool.and_true]
  rw [decide_eq_false here]
  rfl

theorem own_of {α : Type} (rows : List (String × α)) (fresh : List α) :
    ((rows.filter (·.1 ≠ c.key)++fresh.map (c.key,·)).filter (·.1 = c.key)).map (·.2) = fresh := by
  have none : (rows.filter (·.1 ≠ c.key)).filter (·.1 = c.key) = [] := filter_eq_nil_iff.mpr fun x mem is =>
    (of_decide_eq_true (mem_filter.mp mem).2) (of_decide_eq_true is)
  have all : (fresh.map (c.key,·)).filter (·.1 = c.key) = fresh.map (c.key,·) := filter_eq_self.mpr fun x mem => by
    obtain ⟨y,_,rfl⟩ := mem_map.mp mem
    exact decide_eq_true rfl
  rw [filter_append,none,all,nil_append,map_map]
  exact map_id _

theorem upsert_keyed (keyed : Keyed NoticeRow.key rows) : Keyed NoticeRow.key (c.upsert rows) := by
  rw [upsert_rows]
  exact keyed_upsert keyed fun _ _ named => named

section
variable {rows : List NoticeRow} {r : NoticeRow} (mem : r ∈ c.upsert rows)
include mem

theorem stored_others (apart : r.key ≠ c.key) : r ∈ rows := by
  rw [upsert_rows] at mem
  exact upsert_others mem (fun _ _ => rfl) apart

theorem stored_mine (same : r.key = c.key) : r.status = c.status := by
  rw [upsert_rows] at mem
  exact upsert_mine (P := (·.status = c.status)) mem same rfl fun _ _ => rfl
end

theorem begun_vouches {after : Notices} (vouches : Vouches now db) (keyed : Keyed NoticeRow.key after.rows) (half : after.half = db.half.insert c.key)
    (rows : ∀ r ∈ after.rows, r.key ≠ c.key → r ∈ db.rows) (intervals : ∀ k ≠ c.key, after.intervalsOf k = db.intervalsOf k)
    (geometries : ∀ k ≠ c.key, after.geometriesOf k = db.geometriesOf k) : Vouches now after := by
  refine ⟨keyed,fun r mem d own whole => ?_⟩
  rw [half,mem_insert_iff,not_or] at whole
  have before := vouches.kept r (rows r mem whole.1) d own whole.2
  exact ⟨before.row,(intervals r.key whole.1).trans before.intervals,(geometries r.key whole.1).trans before.geometries,before.status⟩

theorem piece_vouches (vouches : Vouches now db) (middle : p ≠ .vouch) : Vouches now (db.piece c p) := by
  cases p with
  | upsert =>
    exact begun_vouches vouches (upsert_keyed vouches.keyed) rfl (fun r mem apart => stored_others mem apart) (fun _ _ => rfl) fun _ _ => rfl
  | clearIntervals =>
    exact begun_vouches vouches vouches.keyed rfl (fun r mem _ => mem) (fun k apart => others_cleared apart _) fun _ _ => rfl
  | clearGeometries =>
    exact begun_vouches vouches vouches.keyed rfl (fun r mem _ => mem) (fun _ _ => rfl) fun k apart => others_cleared apart _
  | interval i =>
    exact begun_vouches vouches vouches.keyed rfl (fun r mem _ => mem) (fun k apart => others_of apart _ [i]) fun _ _ => rfl
  | geometry g =>
    exact begun_vouches vouches vouches.keyed rfl (fun r mem _ => mem) (fun _ _ => rfl) fun k apart => others_of apart _ [g]
  | vouch => exact absurd rfl middle

theorem group_vouches (vouches : Vouches now db) : Vouches now (tfrFeed.run (tfrFeed.parts c) db) := by
  rw [group_run]
  have keyed := upsert_keyed (c := c) vouches.keyed
  have same : ∀ r : NoticeRow, ({ r with fingerprint := some c } : NoticeRow).key = r.key := fun _ => rfl
  refine ⟨keyed.amend _ fun r _ _ => same r,fun r mem d own whole => ?_⟩
  have half : ∀ k, k ≠ c.key → k ∉ (db.half.insert c.key).filter (· ≠ c.key) → k ∉ db.half := fun k apart absent there =>
    absent (mem_filter.mpr ⟨mem_insert_of_mem there,decide_eq_true apart⟩)
  rcases mem_amend.mp mem with ⟨old,apart⟩ | ⟨old,there,named,rfl⟩
  · have before := vouches.kept r (stored_others old apart) d own (half r.key apart whole)
    refine ⟨before.row,?_,?_,before.status⟩
    · exact (others_of apart _ _).trans ((others_cleared apart _).trans before.intervals)
    exact (others_of apart _ _).trans ((others_cleared apart _).trans before.geometries)
  obtain ⟨_,found⟩ := upsert_own (c := c) db.rows
  cases (named ▸ keyed.find there).symm.trans found
  cases own
  exact ⟨rfl,own_of _ _,own_of _ _,fun _ => .inl rfl⟩

theorem prefix_vouches (vouches : Vouches now db) (n : Nat) : Vouches now (tfrFeed.run ((tfrFeed.parts c).take n) db) := by
  have split : tfrFeed.parts c = ([Piece.upsert,.clearIntervals,.clearGeometries]++c.intervals.map Piece.interval++c.geometries.map Piece.geometry).map (Write.part c) ++
      [.part c .vouch] := by
    show (Notice.group c).map _ = _
    unfold Notice.group
    rw [map_append]
    rfl
  by_cases whole : (tfrFeed.parts c).length ≤ n
  · rw [take_of_length_le whole]
    exact group_vouches vouches
  rw [split,length_append,length_singleton] at whole
  rw [split,take_append_of_le_length (by omega)]
  refine run_preserves (Vouches now) (fun w mem current held => ?_) vouches
  obtain ⟨p,there,rfl⟩ := mem_map.mp (mem_of_mem_take mem)
  refine piece_vouches held fun is => ?_
  subst is
  simp at there

theorem write_vouches (vouches : Vouches now db) (single : ∀ c p, w ≠ .part c p) : Vouches now (db.apply w) := by
  cases w with
  | correct => exact amend_vouches vouches (fun _ => rfl) fun r c own => nomatch own
  | part c p => exact absurd rfl (single c p)
  | mark =>
    refine amend_vouches vouches (fun _ => rfl) fun r c own => ⟨own,Nat.one_ne_zero,fun status missing fingerprint is => ?_⟩
    cases is
    rfl
  | withdraw =>
    refine amend_vouches vouches (fun _ => rfl) fun r c own => ⟨own,Nat.succ_ne_zero _,fun status missing fingerprint is => ?_⟩
    cases is
    rfl

theorem single_vouches (vouches : Vouches now db) (single : ∀ w ∈ writes, ∀ c p, w ≠ .part c p) : Vouches now (tfrFeed.run writes db) :=
  run_preserves (Vouches now) (fun w mem _ held => write_vouches held (single w mem)) vouches

theorem writes_vouches (vouches : Vouches now db) (corrections : List (String × String)) (items : List Notice) (n : Nat) :
    Vouches now (tfrFeed.run ((tfrFeed.writes db corrections items).take n) db) := by
  unfold Feed.writes
  rw [take_append,run_append,take_append,run_append]
  refine single_vouches ?_ fun w mem c p => ?_
  · refine run_groups (Vouches now) _ (fun c _ m current held => ?_) ?_ _
    · split
      · rw [take_nil]
        exact held
      · exact prefix_vouches held m
    · refine single_vouches vouches fun w mem c p => ?_
      obtain ⟨d,_,rfl⟩ := mem_map.mp (mem_of_mem_take mem)
      exact fun is => by cases is
  obtain ⟨k,_,there⟩ := mem_flatMap.mp (mem_of_mem_take mem)
  obtain ⟨_,_,_,_,⟨rfl,_⟩ | ⟨rfl,_⟩⟩ := mem_absence there
  · exact fun is => by cases is
  exact fun is => by cases is

theorem later_vouches {after : Int} (vouches : Vouches now db) (more : now ≤ after) : Vouches after db := by
  refine ⟨vouches.keyed,fun r mem c own whole => ?_⟩
  have before := vouches.kept r mem c own whole
  exact ⟨before.row,before.intervals,before.geometries,fun none => (before.status none).imp_right fun past =>
    ⟨past.1,tfr_laws.later c now after past.2 more⟩⟩

theorem expire_cases (now : Int) (r : NoticeRow) : r.expire now = r ∨
    (r.status.closed = false ∧ r.expire now = { r with status := .expired } ∧ ∃ stop, r.stop = some stop ∧ stop < now) := by
  unfold NoticeRow.expire
  split
  · rename_i met
    rw [Bool.and_eq_true,Bool.not_eq_true'] at met
    obtain ⟨stop,is,less⟩ := (Option.any_eq_true _ _).mp met.2
    have early := of_decide_eq_true less
    exact .inr ⟨met.1,rfl,stop,is,by omega⟩
  exact .inl rfl

theorem expire_key (now : Int) (r : NoticeRow) : (r.expire now).key = r.key := by
  rcases expire_cases now r with is | ⟨_,is,_⟩
  · rw [is]
  rw [is]

theorem expire_keyed (vouches : Vouches now db) : Keyed NoticeRow.key (db.rows.map (NoticeRow.expire now)) := by
  have same : (db.rows.map (NoticeRow.expire now)).map NoticeRow.key = db.rows.map NoticeRow.key := by
    rw [map_map]
    exact map_congr_left fun r _ => expire_key now r
  rw [Keyed,same]
  exact vouches.keyed

theorem purge_keyed (vouches : Vouches now db) : Keyed NoticeRow.key (db.purge now old).rows :=
  Nodup.sublist (Sublist.map _ filter_sublist) (expire_keyed vouches)

theorem purge_others (vouches : Vouches now db) (mem : r ∈ (db.purge now old).rows) :
    (db.purge now old).intervalsOf r.key = db.intervalsOf r.key ∧ (db.purge now old).geometriesOf r.key = db.geometriesOf r.key := by
  obtain ⟨listed,stays⟩ := mem_filter.mp mem
  have keyed := expire_keyed vouches
  have present : ((db.rows.map (NoticeRow.expire now)).any fun x => x.key = r.key && x.status.closed && old x.key) = false := by
    rw [any_eq_false]
    intro x there is
    rw [Bool.and_eq_true,Bool.and_eq_true,decide_eq_true_eq] at is
    cases keyed.unique there listed is.1.1
    rw [is.1.2,is.2] at stays
    cases stays
  have same : ∀ {α : Type} (rows : List (String × α)),
      ((rows.filter fun x => !(db.rows.map (NoticeRow.expire now)).any fun y => y.key = x.1 && y.status.closed && old y.key).filter (·.1 = r.key)).map (·.2) =
        (rows.filter (·.1 = r.key)).map (·.2) := fun rows => by
    rw [filter_filter]
    refine congrArg (map _) (filter_congr fun x _ => ?_)
    by_cases here : x.1 = r.key
    · rw [here,present,Bool.not_false,Bool.and_true]
    rw [decide_eq_false here]
    rfl
  exact ⟨same db.intervals,same db.geometries⟩

theorem purge_vouches (vouches : Vouches now db) : Vouches now (db.purge now old) := by
  refine ⟨purge_keyed vouches,fun r mem c own whole => ?_⟩
  obtain ⟨intervals,geometries⟩ := purge_others vouches mem
  obtain ⟨before,there,rfl⟩ := mem_map.mp (mem_filter.mp mem).1
  rcases expire_cases now before with is | ⟨_,is,stop,ends,less⟩
  · rw [is] at own whole intervals geometries ⊢
    have kept := vouches.kept before there c own whole
    exact ⟨kept.row,intervals.trans kept.intervals,geometries.trans kept.geometries,kept.status⟩
  rw [is] at own whole intervals geometries ⊢
  have kept := vouches.kept before there c own whole
  have columns := kept.row
  refine ⟨?_,intervals.trans kept.intervals,geometries.trans kept.geometries,fun _ => .inr ⟨rfl,.inr ⟨stop,?_,less⟩⟩⟩
  · rw [columns]
    rfl
  rw [columns] at ends
  exact ends

theorem head_row (is : tfrFeed.head db k = some h) : ∃ r ∈ db.rows, r.key = k ∧ h = ⟨r.fingerprint,r.missing,r.status,decide (k ∉ db.half)⟩ := by
  obtain ⟨r,found,rfl⟩ := Option.map_eq_some_iff.mp is
  exact ⟨r,(find_some found).1,(find_some found).2,rfl⟩

theorem row_head (keyed : Keyed NoticeRow.key db.rows) (mem : r ∈ db.rows) :
    tfrFeed.head db r.key = some ⟨r.fingerprint,r.missing,r.status,decide (r.key ∉ db.half)⟩ :=
  Option.map_eq_some_iff.mpr ⟨r,keyed.find mem,rfl⟩

theorem purge_kept (vouches : Vouches now db) (k : String) : tfrFeed.head (db.purge now old) k = none ∨
    ∃ h status, tfrFeed.head db k = some h ∧ tfrFeed.head (db.purge now old) k = some { h with status := status } ∧
      (status = h.status ∨ tfrFeed.closed status) := by
  cases is : tfrFeed.head (db.purge now old) k with
  | none => exact .inl rfl
  | some =>
    obtain ⟨r,mem,rfl,rfl⟩ := head_row is
    obtain ⟨before,there,rfl⟩ := mem_map.mp (mem_filter.mp mem).1
    refine .inr ⟨⟨before.fingerprint,before.missing,before.status,decide (before.key ∉ db.half)⟩,(before.expire now).status,?_⟩
    have found := row_head vouches.keyed there
    rcases expire_cases now before with same | ⟨_,same,_⟩
    · rw [same]
      exact ⟨found,rfl,.inl rfl⟩
    rw [same]
    exact ⟨found,rfl,.inr rfl⟩

theorem purge_past (vouches : Vouches now db) (c : Notice) (h : Head Notice NoticeStatus) (is : tfrFeed.head db c.key = some h)
    (own : h.fingerprint = some c) (missing : h.missing = 0) (whole : h.vouched) (gone : tfrFeed.head (db.purge now old) c.key = none) : c.ended now := by
  obtain ⟨r,mem,named,rfl⟩ := head_row is
  have kept := vouches.kept r mem c own (by rw [named]; exact of_decide_eq_true whole)
  have deleted : (r.expire now).status.closed := by
    by_contra isOpen
    rw [Bool.not_eq_true] at isOpen
    have stays : r.expire now ∈ (db.purge now old).rows := mem_filter.mpr ⟨mem_map_of_mem mem,by rw [isOpen]; rfl⟩
    have found := row_head (purge_keyed vouches) stays
    rw [expire_key,named] at found
    cases gone.symm.trans found
  rcases expire_cases now r with same | ⟨_,_,stop,ends,less⟩
  · rw [same] at deleted
    rcases kept.status missing with status | ⟨_,ended⟩
    · rw [status] at deleted
      exact .inl deleted
    exact ended
  rw [kept.row] at ends
  exact .inr ⟨stop,ends,less⟩

theorem purge_notices (old : String → Bool) (sound : Sound tfrFeed now s) (vouches : Vouches now s.db) :
    Sound tfrFeed now { s with db := s.db.purge now old } ∧ Vouches now (s.db.purge now old) :=
  ⟨purge_sound sound (purge_kept vouches) (purge_past vouches),purge_vouches vouches⟩
end LedgeTopOps.Airspace
