import LedgeTopOps.AirspaceReservationCustody

namespace LedgeTopOps.Airspace
open List SnapshotFeeds KeyedRows UpsertedRows StepRuns

section
variable {faa : FaaTfrs} {now : Int}

theorem rows_keyed (faa : FaaTfrs) : Keyed Entry.notam faa.rows := by
  unfold FaaTfrs.rows
  refine foldlRecOn faa.features _ (motive := fun rows => Keyed Entry.notam rows) ?_ fun rows keyed f _ => ?_
  · refine foldlRecOn faa.listed _ (motive := fun rows => Keyed Entry.notam rows) nodup_nil fun rows keyed e _ => ?_
    split
    · show Keyed Entry.notam (upsert Entry.notam rows e fun _ => e)
      exact keyed_upsert keyed fun _ _ _ => rfl
    exact keyed
  split
  · exact keyed
  rename_i absent
  refine keyed.add fun r mem same => absent ?_
  rw [Bool.or_eq_true]
  exact .inr (any_eq_true.mpr ⟨r,mem,decide_eq_true same⟩)

theorem mem_desired (listed : c ∈ faa.desired now) : ∃ e, c = faa.notice now e := by
  obtain ⟨e,_,rfl⟩ := mem_map.mp (mem_mergeSort.mp listed)
  exact ⟨e,rfl⟩

theorem desired_keyed (faa : FaaTfrs) (now : Int) : ((faa.desired now).map tfrFeed.key).Nodup := by
  refine ((mergeSort_perm _ _).map _).nodup_iff.mpr ?_
  rw [map_map]
  exact Nodup.sublist (Sublist.map Entry.notam filter_sublist) (rows_keyed faa)

theorem corrections_foreign {db : Notices} : ∀ c ∈ db.corrections faa now, c.1 ∉ (faa.desired now).map tfrFeed.key := by
  intro c mem
  obtain ⟨r,_,found⟩ := mem_filterMap.mp mem
  obtain ⟨e,_,placed⟩ := Option.bind_eq_some_iff.mp found
  split at placed
  · rename_i moved
    cases placed
    exact moved.1
  cases placed

theorem tfrStatus_past (past : stop < now) : tfrStatus now start (some stop) = .expired := by
  exact if_pos (decide_eq_true past)

theorem tfrStatus_kept : tfrStatus now start stop ≠ .withdrawn := by
  unfold tfrStatus
  split
  · exact nofun
  split
  · exact nofun
  split
  · exact nofun
  exact nofun

theorem intervals_kept : statusForIntervals now intervals ≠ .withdrawn := by
  unfold statusForIntervals
  dsimp only
  split
  · exact nofun
  split
  · exact nofun
  split
  · exact nofun
  split
  · exact nofun
  exact nofun

theorem latest_ge (intervals : List Interval) (start : Int) : start ≤ intervals.foldl (fun latest i => max latest i.stop) start ∧
    ∀ i ∈ intervals, i.stop ≤ intervals.foldl (fun latest i => max latest i.stop) start := by
  induction intervals generalizing start with
  | nil => exact ⟨Int.le_refl _,fun _ mem => (not_mem_nil mem).elim⟩
  | cons i _ ih =>
    obtain ⟨first,others⟩ := ih (max start i.stop)
    rw [foldl_cons]
    refine ⟨by omega,fun j mem => ?_⟩
    rcases mem_cons.mp mem with rfl | later
    · omega
    exact others j later

theorem intervals_past (past : ∀ i ∈ first :: rest, i.stop < now) : statusForIntervals now (first :: rest) = .expired := by
  have all : ∀ status ∈ (first :: rest).map fun i => tfrStatus now (some i.start) (some i.stop), status = NoticeStatus.expired := fun status mem => by
    obtain ⟨i,there,rfl⟩ := mem_map.mp mem
    exact tfrStatus_past (past i there)
  unfold statusForIntervals
  generalize (first :: rest).map (fun i => tfrStatus now (some i.start) (some i.stop)) = statuses at all ⊢
  have inactive : NoticeStatus.active ∉ statuses := fun mem => nomatch all _ mem
  have unscheduled : NoticeStatus.scheduled ∉ statuses := fun mem => nomatch all _ mem
  have ended : statuses.all (· = .expired) := all_eq_true.mpr fun status mem => decide_eq_true (all status mem)
  rw [if_neg inactive,if_neg unscheduled,if_pos ended]
  rfl

theorem notice_past (is : (faa.notice now e).stop = some stop) (past : stop < now) : (faa.notice now e).status = .expired := by
  replace is : (faa.details e.notam).stop = some stop := is
  show (if (faa.details e.notam).found.isEmpty then tfrStatus now (faa.details e.notam).start (faa.details e.notam).stop
    else statusForIntervals now (faa.details e.notam).found) = _
  cases found : (faa.details e.notam).found with
  | nil =>
    rw [is]
    exact tfrStatus_past past
  | cons first rest =>
    refine intervals_past fun i mem => ?_
    unfold Detail.stop at is
    rw [found] at is
    cases is
    obtain ⟨least,others⟩ := latest_ge rest first.stop
    rcases mem_cons.mp mem with rfl | later
    · exact Int.lt_of_le_of_lt least past
    exact Int.lt_of_le_of_lt (others i later) past

theorem desired_status (listed : c ∈ faa.desired now) : c.status ≠ .withdrawn ∧ (c.status ≠ .expired → ¬c.ended now) := by
  obtain ⟨e,rfl⟩ := mem_desired listed
  have kept : (faa.notice now e).status ≠ .withdrawn := by
    show (if _ then _ else _) ≠ _
    split
    · exact tfrStatus_kept
    exact intervals_kept
  refine ⟨kept,fun current past => ?_⟩
  rcases past with closed | ⟨stop,is,less⟩
  · cases status : (faa.notice now e).status with
    | expired => exact current status
    | withdrawn => exact kept status
    | _ => rw [status] at closed; cases closed
  exact current (notice_past is less)
end

section
variable {now : Int}

theorem reservations_keyed (now : Int) (features : List ScheduleFeature) : ((desiredReservations now features).map suaFeed.key).Nodup := by
  refine ((mergeSort_perm _ _).map _).nodup_iff.mpr ?_
  exact foldlRecOn _ _ (motive := fun rows => Keyed Reservation.id rows) nodup_nil fun rows keyed c _ =>
    show Keyed Reservation.id (upsert Reservation.id rows c fun _ => c) from keyed_upsert keyed fun _ _ _ => rfl

section
variable (listed : c ∈ desiredReservations now features)
include listed

theorem mem_reservations : ∃ f, c = ScheduleFeature.reservation now f := by
  have mem := mem_mergeSort.mp listed
  refine foldlRecOn ((features.filter fun f => f.selected && f.airspaceId ≠ "").map (·.reservation now)) setReservation
    (motive := fun rows => ∀ c ∈ rows, ∃ f, c = ScheduleFeature.reservation now f) (fun _ mem => (not_mem_nil mem).elim)
    (fun rows held d there r stored => ?_) c mem
  replace stored : r ∈ upsert Reservation.id rows d fun _ => d := stored
  rcases (mem_upsert fun _ _ _ => rfl).mp stored with rfl | ⟨old,_⟩
  · obtain ⟨f,_,rfl⟩ := mem_map.mp there
    exact ⟨f,rfl⟩
  exact held r old

theorem reservation_expired : c.status = .expired ↔ ∃ stop, c.stop = some stop ∧ stop < now := by
  obtain ⟨f,rfl⟩ := mem_reservations listed
  show suaStatus now f.listing f.start f.stop = .expired ↔ ∃ stop, f.stop = some stop ∧ stop < now
  unfold suaStatus
  constructor
  · intro status
    split at status
    · cases status
    split at status
    · rename_i past
      obtain ⟨stop,is,less⟩ := (Option.any_eq_true _ _).mp past
      exact ⟨stop,is,of_decide_eq_true less⟩
    split at status
    · cases status
    · cases status
    · cases status
    cases status
  rintro ⟨_,is,less⟩
  rw [is,if_neg (fun none => nomatch none.2)]
  exact if_pos (decide_eq_true less)

theorem reservation_current (current : c.status ≠ .expired) : ¬c.ended now := by
  rintro (closed | past)
  · exact current (of_decide_eq_true closed)
  · exact current ((reservation_expired listed).mpr past)
end
end

structure State where
  now : Int
  tfr : Following Notices String Notice
  sua : Following Reservations String Reservation

inductive Event where
  | tick (later : Nat)
  | refreshTfrs (faa : FaaTfrs) (reach : Nat) (finished : Bool)
  | refreshSua (features : List ScheduleFeature) (reach : Nat) (finished : Bool)
  | markAirspaceStaleAndPurge (oldNotice oldReservation : String → Bool)

def initial (now : Int) : State := ⟨now,⟨⟨[],[],[],[]⟩,none,[],none,[]⟩,⟨⟨[],[],[]⟩,none,[],none,[]⟩⟩
def batchSize : Nat := 75

def refreshTfrs (s : State) (faa : FaaTfrs) (reach : Nat) (finished : Bool) : State :=
  { s with tfr := tfrFeed.refresh batchSize s.tfr (s.tfr.db.corrections faa s.now) (faa.desired s.now) reach finished }

def refreshSua (s : State) (features : List ScheduleFeature) (reach : Nat) (finished : Bool) : State :=
  { s with sua := suaFeed.refresh batchSize s.sua [] (desiredReservations s.now features) reach finished }

def markAirspaceStaleAndPurge (s : State) (oldNotice oldReservation : String → Bool) : State :=
  { s with
    tfr := { s.tfr with db := s.tfr.db.purge s.now oldNotice }
    sua := { s.sua with db := s.sua.db.purge s.now oldReservation } }

def State.next (s : State) : Event → State
  | .tick later => { s with now := s.now + later }
  | .refreshTfrs faa reach finished => refreshTfrs s faa reach finished
  | .refreshSua features reach finished => refreshSua s features reach finished
  | .markAirspaceStaleAndPurge oldNotice oldReservation => markAirspaceStaleAndPurge s oldNotice oldReservation

-- Every refresh leaves alone only what it may, reservations of one area agree on it, and what was listed and not
-- rewritten, while an absence was counted, is not missing now.
def Spared (s : State) : Event → Prop
  | .refreshTfrs faa _ _ => Meets tfrFeed s.now s.tfr (s.tfr.db.corrections faa s.now) (faa.desired s.now)
  | .refreshSua features _ _ =>
    Meets suaFeed s.now s.sua [] (desiredReservations s.now features) ∧
    (∀ c ∈ desiredReservations s.now features, ∀ d ∈ desiredReservations s.now features, c.area.id = d.area.id → c.area = d.area) ∧
    ∀ c ∈ desiredReservations s.now features, c.status ≠ .expired →
      s.sua.skips [] (desiredReservations s.now features) = true ∨ suaFeed.unchanged s.sua.db c = true → c.id ∉ s.sua.db.stale
  | .tick _ | .markAirspaceStaleAndPurge _ _ => True

structure NoticeStored (db : Notices) (c : Notice) : Prop where
  row : find NoticeRow.key db.rows c.key = some (c.row c.status 0 (some c))
  intervals : db.intervalsOf c.key = c.intervals
  geometries : db.geometriesOf c.key = c.geometries

structure ReservationStored (db : Reservations) (c : Reservation) : Prop where
  row : find ReservationRow.id db.rows c.id = some (c.row c.status 0 (some c))
  area : find Area.id db.areas c.area.id = some c.area

def AbsentTwice (last : Option (List String)) (keys : List String) (k : String) : Prop := k ∉ keys ∧ ∃ before, last = some before ∧ k ∉ before

structure Follows (s : State) (e : Event) : Prop where
  notices : ∀ faa reach finished, e = .refreshTfrs faa reach finished →
    tfrFeed.returns batchSize s.tfr (s.tfr.db.corrections faa s.now) (faa.desired s.now) reach finished = true →
    ∀ c ∈ faa.desired s.now, c.status ≠ .expired → NoticeStored (s.next e).tfr.db c
  reservations : ∀ features reach finished, e = .refreshSua features reach finished →
    suaFeed.returns batchSize s.sua [] (desiredReservations s.now features) reach finished = true →
    ∀ c ∈ desiredReservations s.now features, c.status ≠ .expired → ReservationStored (s.next e).sua.db c
  withdrawn : ∀ r ∈ (s.next e).tfr.db.rows, r.status = .withdrawn → (∃ before ∈ s.tfr.db.rows, before.key = r.key ∧ before.status = .withdrawn) ∨
    ∃ faa reach finished, e = .refreshTfrs faa reach finished ∧ AbsentTwice s.tfr.last ((faa.desired s.now).map Notice.key) r.key
  expired : ∀ r ∈ (s.next e).sua.db.rows, r.status = .expired → (∃ before ∈ s.sua.db.rows, before.id = r.id ∧ before.status = .expired) ∨
    (∃ stop, r.stop = some stop ∧ stop < s.now) ∨
    ∃ features reach finished, e = .refreshSua features reach finished ∧
      AbsentTwice s.sua.last ((desiredReservations s.now features).map Reservation.id) r.id

structure Good (s : State) : Prop where
  tfr : Sound tfrFeed s.now s.tfr
  vouches : Vouches s.now s.tfr.db
  sua : Sound suaFeed s.now s.sua
  reserves : Reserves s.now s.sua.db

section
variable {s : State} {e : Event}

theorem initial_good (now : Int) : Good (initial now) := by
  refine ⟨⟨fun _ is => ?_,fun _ _ is => ?_⟩,⟨nodup_nil,fun _ mem => (not_mem_nil mem).elim⟩,⟨fun _ is => ?_,fun _ _ is => ?_⟩,
    ⟨nodup_nil,fun _ mem => (not_mem_nil mem).elim⟩⟩
  · cases is
  · cases is
  · cases is
  cases is

theorem refreshed_vouches (faa : FaaTfrs) (reach : Nat) (finished : Bool) (vouches : Vouches s.now s.tfr.db) : Vouches s.now (refreshTfrs s faa reach finished).tfr.db := by
  rcases refresh_run tfrFeed batchSize s.tfr (s.tfr.db.corrections faa s.now) (faa.desired s.now) reach finished with same | ⟨_,n,is⟩
  · exact Eq.mpr (congrArg (Vouches s.now) same) vouches
  exact Eq.mpr (congrArg (Vouches s.now) is) (writes_vouches vouches _ _ n)

theorem refreshed_reserves (features : List ScheduleFeature) (reach : Nat) (finished : Bool) (reserves : Reserves s.now s.sua.db) : Reserves s.now (refreshSua s features reach finished).sua.db := by
  rcases refresh_run suaFeed batchSize s.sua [] (desiredReservations s.now features) reach finished with same | ⟨_,n,is⟩
  · exact Eq.mpr (congrArg (Reserves s.now) same) reserves
  exact Eq.mpr (congrArg (Reserves s.now) is) (writes_reserves reserves _ n)

theorem next_good (good : Good s) (spared : Spared s e) : Good (s.next e) := by
  cases e with
  | tick later =>
    have more : s.now ≤ s.now + later := by omega
    exact ⟨later_sound tfr_laws good.tfr more,later_vouches good.vouches more,later_sound sua_laws good.sua more,later_reserves good.reserves more⟩
  | refreshTfrs faa reach finished =>
    exact ⟨refresh_sound tfr_laws (desired_keyed faa s.now) corrections_foreign good.tfr spared,refreshed_vouches faa reach finished good.vouches,good.sua,good.reserves⟩
  | refreshSua features reach finished =>
    exact ⟨good.tfr,good.vouches,refresh_sound sua_laws (reservations_keyed s.now features) (fun _ mem => (not_mem_nil mem).elim) good.sua spared.1,
      refreshed_reserves features reach finished good.reserves⟩
  | markAirspaceStaleAndPurge oldNotice oldReservation =>
    obtain ⟨tfr,vouches⟩ := purge_notices oldNotice good.tfr good.vouches
    obtain ⟨sua,reserves⟩ := purge_reservations oldReservation good.sua good.reserves
    exact ⟨tfr,vouches,sua,reserves⟩

theorem refreshed_notices (good : Good s) (meets : Spared s (.refreshTfrs faa reach finished))
    (returns : tfrFeed.returns batchSize s.tfr (s.tfr.db.corrections faa s.now) (faa.desired s.now) reach finished)
    (listed : c ∈ faa.desired s.now) (current : c.status ≠ .expired) : NoticeStored (refreshTfrs s faa reach finished).tfr.db c := by
  have fresh := (desired_status listed).2 current
  obtain ⟨h,is,own,missing,whole⟩ := refresh_stored tfr_laws (desired_keyed faa s.now) corrections_foreign good.tfr meets returns listed fresh
  have vouches := refreshed_vouches faa reach finished good.vouches
  obtain ⟨r,mem,named,rfl⟩ := head_row is
  replace named : r.key = c.key := named
  have kept := vouches.kept r mem c own (by rw [named]; exact of_decide_eq_true whole)
  have status : r.status = c.status := (kept.status missing).resolve_right fun past => fresh past.2
  refine ⟨?_,by rw [←named]; exact kept.intervals,by rw [←named]; exact kept.geometries⟩
  have found := vouches.keyed.find mem
  have columns := kept.row
  rw [status,show r.missing = 0 from missing,show r.fingerprint = some c from own] at columns
  rw [named] at found
  rw [←columns]
  exact found

section
variable (good : Good s) (spared : Spared s (.refreshSua features reach finished)) (returns : suaFeed.returns batchSize s.sua [] (desiredReservations s.now features) reach finished) {c : Reservation} (listed : c ∈ desiredReservations s.now features) (current : c.status ≠ .expired)
include good spared returns c listed current

theorem refreshed_area : find Area.id (refreshSua s features reach finished).sua.db.areas c.area.id = some c.area := by
  obtain ⟨meets,agreed,whole⟩ := spared
  unfold Feed.returns at returns
  rw [Bool.and_eq_true,Bool.or_eq_true,decide_eq_true_eq] at returns
  show find Area.id (suaFeed.refresh batchSize s.sua [] (desiredReservations s.now features) reach finished).db.areas c.area.id = _
  unfold Feed.refresh
  split
  · rename_i skips
    rw [if_pos returns.1]
    rcases good.sua.held _ (skips_recorded skips) c listed (meets.whole skips c listed (reservation_current listed current)) with
      ⟨h,found,own,_⟩ | ⟨_,past⟩
    · obtain ⟨r,mem,named,rfl⟩ := reservation_row found
      replace named : r.id = c.id := named
      exact (good.reserves.kept r mem c own).area (by rw [named]; exact whole c listed current (.inl skips))
    exact absurd past (reservation_current listed current)
  rename_i fresh
  have long := returns.2.resolve_left fresh
  rw [if_pos ⟨long,returns.1⟩,take_of_length_le long]
  exact (writes_settled (reservations_keyed s.now features) agreed listed fun same =>
    reserves_settled good.reserves same (whole c listed current (.inr same))).area

theorem refreshed_reservations : ReservationStored (refreshSua s features reach finished).sua.db c := by
  refine ⟨?_,refreshed_area good spared returns listed current⟩
  have fresh := reservation_current listed current
  obtain ⟨h,is,own,missing,_⟩ := refresh_stored sua_laws (reservations_keyed s.now features) (fun _ mem => (not_mem_nil mem).elim)
    good.sua spared.1 returns listed fresh
  have reserves := refreshed_reserves features reach finished good.reserves
  obtain ⟨r,mem,named,rfl⟩ := reservation_row is
  replace named : r.id = c.id := named
  have kept := reserves.kept r mem c own
  have status : r.status = c.status := (kept.status missing).resolve_right fun past => fresh past.2
  have found := reserves.keyed.find mem
  have columns := kept.row
  rw [status,show r.missing = 0 from missing,show r.fingerprint = some c from own] at columns
  rw [named] at found
  rw [←columns]
  exact found
end

theorem writes_withdrawn (listed : ∀ c ∈ items, c.status ≠ .withdrawn)
    (n : Nat) : ∀ r ∈ (tfrFeed.run ((tfrFeed.writes db corrections items).take n) db).rows, r.status = .withdrawn →
      (∃ before ∈ db.rows, before.key = r.key ∧ before.status = .withdrawn) ∨ .withdraw r.key ∈ tfrFeed.writes db corrections items := by
  refine run_preserves (fun (current : Notices) => ∀ r ∈ current.rows, r.status = .withdrawn → (∃ before ∈ db.rows, before.key = r.key ∧
    before.status = .withdrawn) ∨ .withdraw r.key ∈ tfrFeed.writes db corrections items) (fun w among current held => ?_)
    fun r mem status => .inl ⟨r,mem,rfl,status⟩
  have amended : ∀ k (change : NoticeRow → NoticeRow), (∀ r, (change r).key = r.key ∧ (change r).status = r.status) →
      ∀ r ∈ amend NoticeRow.key current.rows k change, r.status = .withdrawn → (∃ before ∈ db.rows, before.key = r.key ∧
        before.status = .withdrawn) ∨ .withdraw r.key ∈ tfrFeed.writes db corrections items := fun k change same r mem status => by
    rcases mem_amend.mp mem with ⟨old,_⟩ | ⟨old,there,_,rfl⟩
    · exact held r old status
    rw [(same old).1]
    exact held old there ((same old).2.symm.trans status)
  have among := mem_of_mem_take among
  cases w with
  | correct k | mark k => exact amended k _ fun _ => ⟨rfl,rfl⟩
  | withdraw =>
    intro r mem status
    rcases mem_amend.mp mem with ⟨old,_⟩ | ⟨old,_,own,rfl⟩
    · exact held r old status
    right
    rw [own]
    exact among
  | part c p =>
    cases p with
    | vouch => exact amended c.key _ fun _ => ⟨rfl,rfl⟩
    | upsert =>
      intro r mem status
      by_cases same : r.key = c.key
      · rcases mem_writes among with ⟨_,_,other⟩ | ⟨d,there,_,part⟩ | ⟨k,absent⟩
        · cases other
        · obtain ⟨_,_,is⟩ := mem_parts part
          cases is
          exact absurd ((stored_mine mem same).symm.trans status) (listed c there)
        · obtain ⟨_,_,_,_,⟨other,_⟩ | ⟨other,_⟩⟩ := mem_absence absent
          · cases other
          · cases other
      exact held r (stored_others mem same) status
    | _ => exact held

theorem writes_expired (listed : ∀ c ∈ items, c.status = .expired → ∃ stop, c.stop = some stop ∧ stop < now) (n : Nat) :
    ∀ r ∈ (suaFeed.run ((suaFeed.writes db [] items).take n) db).rows, r.status = .expired →
      (∃ before ∈ db.rows, before.id = r.id ∧ before.status = .expired) ∨ (∃ stop, r.stop = some stop ∧ stop < now) ∨
        .withdraw r.id ∈ suaFeed.writes db [] items := by
  refine run_preserves (fun (current : Reservations) => ∀ r ∈ current.rows, r.status = .expired →
    (∃ before ∈ db.rows, before.id = r.id ∧ before.status = .expired) ∨ (∃ stop, r.stop = some stop ∧ stop < now) ∨
      .withdraw r.id ∈ suaFeed.writes db [] items) (fun w among current held => ?_) fun r mem status => .inl ⟨r,mem,rfl,status⟩
  have among := mem_of_mem_take among
  cases w with
  | correct => exact held
  | mark =>
    intro r mem status
    rcases mem_amend.mp mem with ⟨old,_⟩ | ⟨old,there,_,rfl⟩
    · exact held r old status
    exact held old there status
  | withdraw =>
    intro r mem status
    rcases mem_amend.mp mem with ⟨old,_⟩ | ⟨old,_,own,rfl⟩
    · exact held r old status
    right
    right
    rw [own]
    exact among
  | part c p =>
    cases p with
    | area => exact held
    | reserve =>
      intro r mem status
      by_cases same : r.id = c.id
      · rcases mem_writes among with ⟨_,none,_⟩ | ⟨d,there,_,part⟩ | ⟨k,absent⟩
        · exact (not_mem_nil none).elim
        · obtain ⟨_,_,is⟩ := mem_parts part
          cases is
          have row := reserve_mine mem same
          rw [row] at status ⊢
          exact .inr (.inl (listed c there status))
        · obtain ⟨_,_,_,_,⟨other,_⟩ | ⟨other,_⟩⟩ := mem_absence absent
          · cases other
          · cases other
      exact held r (reserve_others mem same) status

theorem refreshed_withdrawn (good : Good s) (meets : Spared s (.refreshTfrs faa reach finished)) :
    ∀ r ∈ (refreshTfrs s faa reach finished).tfr.db.rows, r.status = .withdrawn → (∃ before ∈ s.tfr.db.rows, before.key = r.key ∧ before.status = .withdrawn) ∨
        AbsentTwice s.tfr.last ((faa.desired s.now).map Notice.key) r.key := by
  intro r mem status
  rcases refresh_run tfrFeed batchSize s.tfr (s.tfr.db.corrections faa s.now) (faa.desired s.now) reach finished with same | ⟨fresh,n,is⟩
  · replace mem : r ∈ (tfrFeed.refresh batchSize s.tfr _ _ reach finished).db.rows := mem
    rw [same] at mem
    exact .inl ⟨r,mem,rfl,status⟩
  replace mem : r ∈ (tfrFeed.refresh batchSize s.tfr _ _ reach finished).db.rows := mem
  rw [is] at mem
  rcases writes_withdrawn (fun c there => (desired_status there).1) n r mem status with before | withdrawn
  · exact .inl before
  exact .inr (withdraw_absent good.tfr meets fresh withdrawn)

theorem refreshed_expired (good : Good s) (spared : Spared s (.refreshSua features reach finished)) :
    ∀ r ∈ (refreshSua s features reach finished).sua.db.rows, r.status = .expired →
      (∃ before ∈ s.sua.db.rows, before.id = r.id ∧ before.status = .expired) ∨ (∃ stop, r.stop = some stop ∧ stop < s.now) ∨
        AbsentTwice s.sua.last ((desiredReservations s.now features).map Reservation.id) r.id := by
  intro r mem status
  rcases refresh_run suaFeed batchSize s.sua [] (desiredReservations s.now features) reach finished with same | ⟨fresh,n,is⟩
  · replace mem : r ∈ (suaFeed.refresh batchSize s.sua [] _ reach finished).db.rows := mem
    rw [same] at mem
    exact .inl ⟨r,mem,rfl,status⟩
  replace mem : r ∈ (suaFeed.refresh batchSize s.sua [] _ reach finished).db.rows := mem
  rw [is] at mem
  rcases writes_expired (fun c there => (reservation_expired there).mp) n r mem status with before | past | withdrawn
  · exact .inl before
  · exact .inr (.inl past)
  exact .inr (.inr (withdraw_absent good.sua spared.1 fresh withdrawn))

theorem purged_withdrawn {db : Notices} : ∀ r ∈ (db.purge now old).rows, r.status = .withdrawn →
    ∃ before ∈ db.rows, before.key = r.key ∧ before.status = .withdrawn := by
  intro r mem status
  obtain ⟨before,there,rfl⟩ := mem_map.mp (mem_filter.mp mem).1
  rcases expire_cases now before with same | ⟨_,same,_⟩
  · rw [same] at status ⊢
    exact ⟨before,there,rfl,status⟩
  rw [same] at status
  cases status

theorem purged_expired {db : Reservations} : ∀ r ∈ (db.purge now old).rows, r.status = .expired →
    (∃ before ∈ db.rows, before.id = r.id ∧ before.status = .expired) ∨ ∃ stop, r.stop = some stop ∧ stop < now := by
  intro r mem status
  obtain ⟨before,there,rfl⟩ := mem_map.mp (mem_filter.mp mem).1
  rcases expire_reservation now before with same | ⟨_,same,past⟩
  · rw [same] at status ⊢
    exact .inl ⟨before,there,rfl,status⟩
  rw [same]
  exact .inr past

theorem next_follows (good : Good s) (spared : Spared s e) : Follows s e := by
  refine ⟨fun faa reach finished is returns c listed current => ?_,fun features reach finished is returns c listed current => ?_,
    fun r mem status => ?_,fun r mem status => ?_⟩
  · cases is
    exact refreshed_notices good spared returns listed current
  · cases is
    exact refreshed_reservations good spared returns listed current
  · cases e with
    | tick | refreshSua => exact .inl ⟨r,mem,rfl,status⟩
    | markAirspaceStaleAndPurge => exact .inl (purged_withdrawn r mem status)
    | refreshTfrs faa reach finished =>
      exact (refreshed_withdrawn good spared r mem status).imp_right fun absent => ⟨faa,reach,finished,rfl,absent⟩
  cases e with
  | tick | refreshTfrs => exact .inl ⟨r,mem,rfl,status⟩
  | markAirspaceStaleAndPurge => exact (purged_expired r mem status).imp_right .inl
  | refreshSua features reach finished =>
    exact (refreshed_expired good spared r mem status).imp_right fun either => either.imp_right fun absent => ⟨features,reach,finished,rfl,absent⟩

theorem run_good (run : Runs (Guarded (fun s e t => s.next e = t) Spared) (initial now) events s) : Good s :=
  run.preserves Good (fun s e t good (step : Guarded (fun s e t => s.next e = t) Spared s e t) => step.1 ▸ next_good good step.2) (initial_good now)

-- In every run whose refreshes all leave alone only what they may, the tables follow the
-- snapshots.
theorem snapshots_followed {now : Int} {events : List Event} (run : Runs (Guarded (fun s e t => s.next e = t) Spared) (initial now) events s)
    (spared : Spared s e) : Follows s e :=
  next_follows (run_good run) spared
end

def reading (title : String) : FaaTfrs := ⟨[⟨"6/1001","WI",none,none,some title,none,none⟩],[],fun _ => ⟨none,[],none,none⟩⟩
def titled (title : String) : Notice := ⟨"6/1001",none,none,title,none,.unknown,none,none,none,false,none,[],[]⟩

theorem reading_desired (title : String) (now : Int) : (reading title).desired now = [titled title] := by
  have geometries : (reading title).notice now ⟨"6/1001","WI",none,none,some title,none,none⟩ = titled title := by
    show ({ titled title with geometries := ([] : List String).mergeSort (· ≤ ·) } : Notice) = _
    rw [mergeSort_nil]
    rfl
  unfold FaaTfrs.desired
  rw [show (reading title).rows.filter (fun e => isWisconsinTfr e ((reading title).geometries e.notam)) =
    [⟨"6/1001","WI",none,none,some title,none,none⟩] from rfl,map_singleton,geometries,mergeSort_singleton]

theorem reading_corrections (title : String) (rows : List NoticeRow) (now : Int) (same : ∀ r ∈ rows, r.key = "6/1001") :
    (⟨rows,[],[],[]⟩ : Notices).corrections (reading title) now = [] := by
  unfold Notices.corrections
  rw [reading_desired]
  refine filterMap_eq_nil_iff.mpr fun r mem => ?_
  rw [same r mem]
  rfl

def followedOnce : State := { initial 0 with tfr := ⟨⟨[(titled "first").row .unknown 0 (some (titled "first"))],[],[],[]⟩,some ⟨false,[titled "first"]⟩,[],
  some ["6/1001"],[]⟩ }

def followedTwice : State := { initial 0 with tfr := ⟨⟨[(titled "second").row .unknown 0 (some (titled "second"))],[],[],[]⟩,
  some ⟨false,[titled "first"]⟩,["6/1001","6/1001","6/1001","6/1001"],some ["6/1001"],[]⟩ }

theorem first_followed : (initial 0).next (.refreshTfrs (reading "first") 1 true) = followedOnce := by
  show refreshTfrs (initial 0) (reading "first") 1 true = _
  unfold refreshTfrs
  rw [reading_desired,show (initial 0).tfr.db.corrections (reading "first") (initial 0).now = [] from rfl]
  rfl

theorem second_followed : followedOnce.next (.refreshTfrs (reading "second") 1 false) = followedTwice := by
  show refreshTfrs followedOnce (reading "second") 1 false = _
  unfold refreshTfrs
  rw [reading_desired,show followedOnce.tfr.db.corrections (reading "second") followedOnce.now = [] from reading_corrections _ _ _ fun r mem => by
    cases mem_singleton.mp mem
    rfl]
  rfl

theorem snapshots_followed_example : Follows followedOnce (.refreshTfrs (reading "second") 1 true) := by
  have begins : Spared (initial 0) (.refreshTfrs (reading "first") 1 true) := by
    refine ⟨fun skips => ?_,fun _ c _ _ same => ?_,fun _ k h is => ?_⟩
    · cases skips
    · cases same
    cases is
  have run : Runs (Guarded (fun s e t => s.next e = t) Spared) (initial 0) [.refreshTfrs (reading "first") 1 true] followedOnce :=
    .single ⟨first_followed,begins⟩
  refine snapshots_followed run ?_
  show Meets tfrFeed followedOnce.now followedOnce.tfr (followedOnce.tfr.db.corrections (reading "second") followedOnce.now)
    ((reading "second").desired followedOnce.now)
  rw [reading_desired]
  refine ⟨fun skips => ?_,fun _ c listed _ same => ?_,fun _ k h _ _ cut => (not_mem_nil cut).elim⟩
  · have recorded := congrArg (Option.map Recorded.items) (skips_recorded skips)
    exact absurd recorded (by decide)
  cases mem_singleton.mp listed
  exact absurd same (by decide)

-- After a second snapshot whose recording failed the first one is skipped, and its notice is not stored.
theorem older_skipped : ¬∀ (now : Int) (events : List Event) (s : State) (e : Event),
    Runs (fun s e t => s.next e = t) (initial now) events s → Follows s e := by
  intro claim
  have run : Runs (fun s e t => s.next e = t) (initial 0) [.refreshTfrs (reading "first") 1 true,.refreshTfrs (reading "second") 1 false] followedTwice :=
    .step (.single first_followed) second_followed
  have follows := claim 0 _ followedTwice (.refreshTfrs (reading "first") 1 true) run
  have none : followedTwice.tfr.db.corrections (reading "first") followedTwice.now = [] := reading_corrections _ _ _ fun r member => by
    cases mem_singleton.mp member
    rfl
  have stored := follows.notices (reading "first") 1 true rfl (by rw [reading_desired,none]; decide) (titled "first")
    (by rw [reading_desired]; exact mem_singleton.mpr rfl) nofun
  have row := stored.row
  rw [show followedTwice.next (.refreshTfrs (reading "first") 1 true) = refreshTfrs followedTwice (reading "first") 1 true from rfl] at row
  unfold refreshTfrs at row
  rw [reading_desired,none] at row
  exact absurd row (by decide)
end LedgeTopOps.Airspace
