import LedgeTopOps.AirspaceReservations
import LedgeTopOps.AirspaceNoticeCustody

namespace LedgeTopOps.Airspace
open List SnapshotFeeds KeyedRows UpsertedRows

section
variable {c : Reservation}

theorem area_apart {areas : List Area} {a : Area} (apart : k ≠ a.id) : find Area.id (a.upsert areas) k = find Area.id areas k := by
  exact find_upsert_apart (fun _ => rfl) apart

theorem area_own (a : Area) (areas : List Area) : find Area.id (a.upsert areas) a.id = some a := by
  have own : ∃ old, find Area.id (upsert Area.id areas a fun old => { a with id := old.id }) a.id = some old ∧ old = a :=
    find_upsert_own (fun _ => rfl) rfl fun old (named : old.id = a.id) => by rw [named]
  obtain ⟨_,found,rfl⟩ := own
  exact found

theorem reserve_rows (c : Reservation) (rows : List ReservationRow) :
    c.upsert rows = upsert ReservationRow.id rows (c.row c.status 0 (some c)) c.write := rfl

theorem write_named (r : ReservationRow) (named : r.id = c.id) : c.write r = c.row c.status 0 (some c) := by
  rw [Reservation.write,named]
  rfl

section
theorem reserve_apart (apart : k ≠ c.id) : find ReservationRow.id (c.upsert rows) k = find ReservationRow.id rows k := by
  rw [reserve_rows]
  exact find_upsert_apart (fun _ => rfl) apart

theorem reserve_own (rows : List ReservationRow) : find ReservationRow.id (c.upsert rows) c.id = some (c.row c.status 0 (some c)) := by
  have own : ∃ r, find ReservationRow.id (upsert ReservationRow.id rows (c.row c.status 0 (some c)) c.write) c.id = some r ∧
    r = c.row c.status 0 (some c) := find_upsert_own (fun _ => rfl) rfl write_named
  obtain ⟨_,found,rfl⟩ := own
  exact found

theorem reserve_others (mem : r ∈ c.upsert rows) (apart : r.id ≠ c.id) : r ∈ rows := by
  rw [reserve_rows] at mem
  exact upsert_others mem (fun _ _ => rfl) apart

theorem reserve_mine (mem : r ∈ c.upsert rows) (same : r.id = c.id) : r = c.row c.status 0 (some c) := by
  rw [reserve_rows] at mem
  exact upsert_mine (P := (· = c.row c.status 0 (some c))) mem same rfl write_named

theorem reserve_keyed (keyed : Keyed ReservationRow.id rows) : Keyed ReservationRow.id (c.upsert rows) := by
  rw [reserve_rows]
  exact keyed_upsert keyed fun _ _ named => named
end

theorem sua_head {after : Reservations} (rows : find ReservationRow.id after.rows k = find ReservationRow.id db.rows k) :
    suaFeed.head after k = suaFeed.head db k := congrArg (Option.map _) rows

theorem sua_laws : Laws suaFeed where
  apart w db k apart := by
    cases w with
    | correct => rfl
    | part _ p =>
      cases p with
      | area => rfl
      | reserve => exact sua_head (reserve_apart apart)
    | mark =>
      have same : ∀ r : ReservationRow, ({ r with missing := 1 } : ReservationRow).id = r.id := fun _ => rfl
      exact sua_head (amend_apart same apart)
    | withdraw =>
      have same : ∀ r : ReservationRow, ({ r with missing := r.missing + 1, status := .expired } : ReservationRow).id = r.id := fun _ => rfl
      exact sua_head (amend_apart same apart)
  full c db := by
    show (find ReservationRow.id (c.upsert db.rows) c.id).map _ = _
    rw [reserve_own]
    rfl
  later c now after past more := by
    rcases past with expired | ⟨stop,is,less⟩
    · exact .inl expired
    exact .inr ⟨stop,is,Int.lt_of_lt_of_le less more⟩
end

-- What the fingerprint of a reservation vouches for: its own row at once, and its area while
-- that is not stale.
structure Reserved (now : Int) (db : Reservations) (c : Reservation) (r : ReservationRow) : Prop where
  row : r = c.row r.status r.missing r.fingerprint
  status : r.missing = 0 → r.status = c.status ∨ (r.status = .expired ∧ c.ended now)
  area : r.id ∉ db.stale → find Area.id db.areas c.area.id = some c.area

structure Reserves (now : Int) (db : Reservations) : Prop where
  keyed : Keyed ReservationRow.id db.rows
  kept : ∀ r ∈ db.rows, ∀ c, r.fingerprint = some c → Reserved now db c r

variable {db : Reservations}

theorem counted_reserves {change : ReservationRow → ReservationRow} (reserves : Reserves now db) (same : ∀ r, (change r).id = r.id)
    (kept : ∀ r c, (change r).fingerprint = some c → r.fingerprint = some c ∧ (change r).missing ≠ 0 ∧
      ∀ status missing fingerprint, r = c.row status missing fingerprint → change r = c.row (change r).status (change r).missing (change r).fingerprint) :
    Reserves now { db with rows := amend ReservationRow.id db.rows k change } := by
  refine ⟨reserves.keyed.amend change fun r _ _ => same r,fun r mem d own => ?_⟩
  rcases mem_amend.mp mem with ⟨old,_⟩ | ⟨old,there,_,rfl⟩
  · have before := reserves.kept r old d own
    exact ⟨before.row,before.status,before.area⟩
  obtain ⟨was,counted,columns⟩ := kept old d own
  have before := reserves.kept old there d was
  exact ⟨columns _ _ _ before.row,fun none => absurd none counted,fun whole => before.area (by rw [←same]; exact whole)⟩

section
variable (reserves : Reserves now db)
include reserves

theorem area_reserves : Reserves now (db.piece c .area) := by
  refine ⟨reserves.keyed,fun r mem d own => ?_⟩
  have before := reserves.kept r mem d own
  refine ⟨before.row,before.status,fun whole => ?_⟩
  show find Area.id (c.area.upsert db.areas) d.area.id = some d.area
  replace whole : r.id ∉ (if find Area.id db.areas c.area.id = some c.area then db.stale
      else (db.rows.filter (·.areaId = c.area.id)).map (·.id)++db.stale) := whole
  by_cases same : d.area.id = c.area.id
  · split at whole
    · rename_i stored
      have held := before.area whole
      rw [same] at held ⊢
      rw [area_own,←stored,held]
    · have placed : r.areaId = c.area.id := by
        rw [before.row]
        exact same
      exact absurd (mem_append_left _ (mem_map.mpr ⟨r,mem_filter.mpr ⟨mem,decide_eq_true placed⟩,rfl⟩)) whole
  rw [area_apart same]
  refine before.area fun stale => whole ?_
  split
  · exact stale
  exact mem_append_right _ stale

theorem group_reserves : Reserves now (suaFeed.run (suaFeed.parts c) db) := by
  have first := area_reserves (c := c) reserves
  have stored : find Area.id (db.piece c .area).areas c.area.id = some c.area := area_own c.area db.areas
  show Reserves now ((db.piece c .area).piece c .reserve)
  generalize db.piece c .area = middle at first stored
  refine ⟨reserve_keyed first.keyed,fun r mem d own => ?_⟩
  by_cases same : r.id = c.id
  · have found := (reserve_keyed (c := c) first.keyed).find mem
    rw [same,reserve_own] at found
    cases found
    cases own
    exact ⟨rfl,fun _ => .inl rfl,fun _ => stored⟩
  have before := first.kept r (reserve_others mem same) d own
  exact ⟨before.row,before.status,fun whole => before.area fun stale => whole (mem_filter.mpr ⟨stale,decide_eq_true same⟩)⟩

theorem prefix_reserves (n : Nat) : Reserves now (suaFeed.run ((suaFeed.parts c).take n) db) := by
  match n with
  | 0 => exact reserves
  | 1 => exact area_reserves reserves
  | n + 2 =>
    rw [take_of_length_le (Nat.le_add_left 2 n)]
    exact group_reserves reserves

theorem single_reserves (single : ∀ w ∈ writes, ∀ c p, w ≠ .part c p) : Reserves now (suaFeed.run writes db) := by
  refine run_preserves (Reserves now) (fun w mem current held => ?_) reserves
  cases w with
  | correct => exact held
  | part c p => exact absurd rfl (single _ mem c p)
  | mark =>
    refine counted_reserves held (fun _ => rfl) fun r c own => ⟨own,Nat.one_ne_zero,fun status missing fingerprint is => ?_⟩
    cases is
    rfl
  | withdraw =>
    refine counted_reserves held (fun _ => rfl) fun r c own => ⟨own,Nat.succ_ne_zero _,fun status missing fingerprint is => ?_⟩
    cases is
    rfl

theorem writes_reserves (items : List Reservation) (n : Nat) : Reserves now (suaFeed.run ((suaFeed.writes db [] items).take n) db) := by
  unfold Feed.writes
  rw [map_nil,nil_append,take_append,run_append]
  refine single_reserves ?_ fun w mem c p => ?_
  · refine run_groups (Reserves now) _ (fun c _ m current held => ?_) reserves _
    split
    · rw [take_nil]
      exact held
    exact prefix_reserves held m
  obtain ⟨k,_,there⟩ := mem_flatMap.mp (mem_of_mem_take mem)
  obtain ⟨_,_,_,_,⟨rfl,_⟩ | ⟨rfl,_⟩⟩ := mem_absence there
  · exact fun is => by cases is
  exact fun is => by cases is
end

theorem later_reserves {after : Int} (reserves : Reserves now db) (more : now ≤ after) : Reserves after db := by
  refine ⟨reserves.keyed,fun r mem c own => ?_⟩
  have before := reserves.kept r mem c own
  exact ⟨before.row,fun none => (before.status none).imp_right fun past => ⟨past.1,sua_laws.later c now after past.2 more⟩,before.area⟩

theorem expire_reservation (now : Int) (r : ReservationRow) : r.expire now = r ∨
    (r.status.closed = false ∧ r.expire now = { r with status := .expired } ∧ ∃ stop, r.stop = some stop ∧ stop < now) := by
  unfold ReservationRow.expire
  split
  · rename_i met
    rw [Bool.and_eq_true,Bool.and_eq_true,Bool.not_eq_true'] at met
    obtain ⟨stop,is,less⟩ := (Option.any_eq_true _ _).mp met.2
    have early := of_decide_eq_true less
    exact .inr ⟨met.1.1,rfl,stop,is,by omega⟩
  exact .inl rfl

theorem expire_id (now : Int) (r : ReservationRow) : (r.expire now).id = r.id := by
  rcases expire_reservation now r with is | ⟨_,is,_⟩
  · rw [is]
  rw [is]

theorem purged_keyed {old : String → Bool} (reserves : Reserves now db) : Keyed ReservationRow.id (db.purge now old).rows := by
  have same : (db.rows.map (ReservationRow.expire now)).map ReservationRow.id = db.rows.map ReservationRow.id := by
    rw [map_map]
    exact map_congr_left fun r _ => expire_id now r
  have keyed : Keyed ReservationRow.id (db.rows.map (ReservationRow.expire now)) := by
    rw [Keyed,same]
    exact reserves.keyed
  exact Nodup.sublist (Sublist.map _ filter_sublist) keyed

theorem purged_area {old : String → Bool} (mem : r ∈ (db.purge now old).rows) :
    find Area.id (db.purge now old).areas r.areaId = find Area.id db.areas r.areaId := by
  show List.find? _ (db.areas.filter fun a => (db.purge now old).rows.any (·.areaId = a.id)) = _
  rw [List.find?_filter]
  refine congrArg (fun test => List.find? test db.areas) (funext fun a => ?_)
  by_cases here : a.id = r.areaId
  · have used : (db.purge now old).rows.any (·.areaId = a.id) := any_eq_true.mpr ⟨r,mem,decide_eq_true here.symm⟩
    rw [used,decide_eq_true here]
    rfl
  rw [decide_eq_false here]
  simp

theorem purge_reserves {old : String → Bool} (reserves : Reserves now db) : Reserves now (db.purge now old) := by
  refine ⟨purged_keyed reserves,fun r mem c own => ?_⟩
  have area := purged_area mem
  obtain ⟨before,there,rfl⟩ := mem_map.mp (mem_filter.mp mem).1
  rcases expire_reservation now before with is | ⟨_,is,stop,ends,less⟩
  · rw [is] at own area ⊢
    have kept := reserves.kept before there c own
    refine ⟨kept.row,kept.status,fun whole => ?_⟩
    have held := kept.area whole
    rw [kept.row] at area
    exact area.trans held
  rw [is] at own area ⊢
  have kept := reserves.kept before there c own
  have columns := kept.row
  refine ⟨?_,fun _ => .inr ⟨rfl,.inr ⟨stop,?_,less⟩⟩,fun whole => ?_⟩
  · rw [columns]
    rfl
  · rw [columns] at ends
    exact ends
  have held := kept.area whole
  rw [columns] at area
  exact area.trans held

theorem reservation_row (is : suaFeed.head db k = some h) : ∃ r ∈ db.rows, r.id = k ∧ h = ⟨r.fingerprint,r.missing,r.status,true⟩ := by
  obtain ⟨r,found,rfl⟩ := Option.map_eq_some_iff.mp is
  exact ⟨r,(find_some found).1,(find_some found).2,rfl⟩

theorem reservation_head (keyed : Keyed ReservationRow.id db.rows) {r : ReservationRow} (mem : r ∈ db.rows) :
    suaFeed.head db r.id = some ⟨r.fingerprint,r.missing,r.status,true⟩ :=
  Option.map_eq_some_iff.mpr ⟨r,keyed.find mem,rfl⟩

theorem purged_kept {old : String → Bool} (reserves : Reserves now db) (k : String) : suaFeed.head (db.purge now old) k = none ∨
    ∃ h status, suaFeed.head db k = some h ∧ suaFeed.head (db.purge now old) k = some { h with status := status } ∧
      (status = h.status ∨ suaFeed.closed status) := by
  cases is : suaFeed.head (db.purge now old) k with
  | none => exact .inl rfl
  | some =>
    obtain ⟨r,mem,rfl,rfl⟩ := reservation_row is
    obtain ⟨before,there,rfl⟩ := mem_map.mp (mem_filter.mp mem).1
    refine .inr ⟨⟨before.fingerprint,before.missing,before.status,true⟩,(before.expire now).status,?_⟩
    have found := reservation_head reserves.keyed there
    rcases expire_reservation now before with same | ⟨_,same,_⟩
    · rw [same]
      exact ⟨found,rfl,.inl rfl⟩
    rw [same]
    exact ⟨found,rfl,.inr rfl⟩

theorem purged_past {old : String → Bool} (reserves : Reserves now db) (c : Reservation) (h : Head Reservation ReservationStatus)
    (is : suaFeed.head db c.id = some h) (own : h.fingerprint = some c) (missing : h.missing = 0)
    (gone : suaFeed.head (db.purge now old) c.id = none) : c.ended now := by
  obtain ⟨r,mem,named,rfl⟩ := reservation_row is
  have kept := reserves.kept r mem c own
  have deleted : (r.expire now).status.closed := by
    by_contra isOpen
    rw [Bool.not_eq_true] at isOpen
    have stays : r.expire now ∈ (db.purge now old).rows := mem_filter.mpr ⟨mem_map_of_mem mem,by rw [isOpen]; rfl⟩
    have found := reservation_head (purged_keyed reserves) stays
    rw [expire_id,named] at found
    cases gone.symm.trans found
  rcases expire_reservation now r with same | ⟨_,_,stop,ends,less⟩
  · rw [same] at deleted
    rcases kept.status missing with status | ⟨_,ended⟩
    · rw [status] at deleted
      exact .inl deleted
    exact ended
  rw [kept.row] at ends
  exact .inr ⟨stop,ends,less⟩

theorem purge_reservations (old : String → Bool) (sound : Sound suaFeed now s) (reserves : Reserves now s.db) :
    Sound suaFeed now { s with db := s.db.purge now old } ∧ Reserves now (s.db.purge now old) :=
  ⟨purge_sound sound (purged_kept reserves) fun c h is own missing _ gone => purged_past reserves c h is own missing gone,purge_reserves reserves⟩

structure Settled (c : Reservation) (db : Reservations) : Prop where
  whole : c.id ∉ db.stale
  area : find Area.id db.areas c.area.id = some c.area
  placed : ∀ r ∈ db.rows, r.id = c.id → r.areaId = c.area.id

theorem group_settled (c : Reservation) (db : Reservations) : Settled c (suaFeed.run (suaFeed.parts c) db) := by
  refine ⟨fun stale => (of_decide_eq_true (mem_filter.mp stale).2) rfl,area_own c.area db.areas,fun r mem same => ?_⟩
  rw [reserve_mine mem same]
  rfl

theorem settled_other (settled : Settled c db) (apart : c.id ≠ d.id) (agreed : c.area.id = d.area.id → c.area = d.area) : Settled c (db.piece d p) := by
  cases p with
  | area =>
    by_cases same : c.area.id = d.area.id
    · have equal := agreed same
      have stored : find Area.id db.areas d.area.id = some d.area := by
        rw [←equal]
        exact settled.area
      refine ⟨?_,?_,settled.placed⟩
      · show c.id ∉ (if find Area.id db.areas d.area.id = some d.area then db.stale else _)
        rw [if_pos stored]
        exact settled.whole
      show find Area.id (d.area.upsert db.areas) c.area.id = _
      rw [equal,area_own]
    refine ⟨?_,(area_apart same).trans settled.area,settled.placed⟩
    show c.id ∉ (if find Area.id db.areas d.area.id = some d.area then db.stale else _)
    split
    · exact settled.whole
    intro stale
    rcases mem_append.mp stale with fresh | old
    · obtain ⟨r,mem,named⟩ := mem_map.mp fresh
      obtain ⟨listed,there⟩ := mem_filter.mp mem
      exact same ((settled.placed r listed named).symm.trans (of_decide_eq_true there))
    exact settled.whole old
  | reserve =>
    exact ⟨fun stale => settled.whole (mem_filter.mp stale).1,settled.area,fun r mem same =>
      settled.placed r (reserve_others mem fun is => apart (same.symm.trans is)) same⟩

theorem settled_counted {change : ReservationRow → ReservationRow} (settled : Settled c db)
    (same : ∀ r, (change r).id = r.id ∧ (change r).areaId = r.areaId) : Settled c { db with rows := amend ReservationRow.id db.rows k change } := by
  refine ⟨settled.whole,settled.area,fun r mem named => ?_⟩
  rcases mem_amend.mp mem with ⟨old,_⟩ | ⟨old,there,_,rfl⟩
  · exact settled.placed r old named
  rw [(same old).2]
  exact settled.placed old there ((same old).1.symm.trans named)

theorem writes_settled (distinct : (items.map Reservation.id).Nodup)
    (agreed : ∀ c ∈ items, ∀ d ∈ items, c.area.id = d.area.id → c.area = d.area) (listed : c ∈ items)
    (start : suaFeed.unchanged db c → Settled c db) : Settled c (suaFeed.run (suaFeed.writes db [] items) db) := by
  refine writes_settle distinct (fun _ mem => (not_mem_nil mem).elim) (Settled c) listed start (group_settled c) fun w mem apart current settled => ?_
  rcases mem_writes mem with ⟨_,none,_⟩ | ⟨d,there,_,part⟩ | ⟨key,absent⟩
  · exact (not_mem_nil none).elim
  · obtain ⟨p,_,rfl⟩ := mem_parts part
    exact settled_other settled apart (agreed c listed d there)
  obtain ⟨_,_,_,_,⟨rfl,_⟩ | ⟨rfl,_⟩⟩ := mem_absence absent
  · exact settled_counted settled fun _ => ⟨rfl,rfl⟩
  exact settled_counted settled fun _ => ⟨rfl,rfl⟩

theorem reserves_settled (reserves : Reserves now db) (same : suaFeed.unchanged db c) (whole : c.id ∉ db.stale) : Settled c db := by
  obtain ⟨h,is,own,_⟩ := unchanged_head same
  obtain ⟨r,mem,named,rfl⟩ := reservation_row is
  have kept := reserves.kept r mem c own
  refine ⟨whole,kept.area (by rw [named]; exact whole),fun other there id => ?_⟩
  cases reserves.keyed.unique there mem (id.trans named.symm)
  rw [kept.row]
  rfl
end LedgeTopOps.Airspace
