import LedgeTopOps.SnapshotCache

namespace LedgeTopOps.SnapshotAccounting
open KeyedRows StepRuns SnapshotCache
open List (mem_map_of_mem mem_append mem_singleton map_append nodup_nil)
variable {limits : Limits} {cache before after : Cache}

structure Balanced (limits : Limits) (cache : Cache) : Prop where
  identified : Keyed Entry.snapshotId (cache.entries++cache.removed)
  exclusive : Keyed Entry.stream (cache.entries++cache.removed)
  logged : cache.closedStreams = cache.removed.map Entry.stream
  unread : ∀ entry ∈ cache.removed, entry.readers = 0
  sized : ∀ entry ∈ cache.entries, 0 ≤ entry.length
  reserved : cache.reserved = total Entry.length cache.entries + cache.pendingBytes
  readers : cache.readers = total Entry.readers cache.entries
  bytes : cache.reserved ≤ limits.maxBytes
  slots : cache.entries.length + cache.pending ≤ limits.maxEntries
  readable : cache.readers ≤ limits.maxReaders

def Same (left right : Entry) : Prop :=
  left.snapshotId = right.snapshotId ∧ left.stream = right.stream ∧ left.readers = right.readers

structure Evicted (before after : Cache) : Prop where
  kept : ∀ entry ∈ before.entries, entry.readers ≠ 0 → ∃ still ∈ after.entries, Same entry still
  origin : ∀ still ∈ after.entries, ∃ entry ∈ before.entries, Same entry still
  smaller : after.reserved ≤ before.reserved
  shorter : after.entries.length ≤ before.entries.length
  pending : after.pending = before.pending
  pendingBytes : after.pendingBytes = before.pendingBytes
  closed : after.closed = before.closed

theorem Same.trans (left : Same x y) (right : Same y z) : Same x z :=
  ⟨left.1.trans right.1,left.2.1.trans right.2.1,left.2.2.trans right.2.2⟩

theorem Evicted.refl (cache : Cache) : Evicted cache cache :=
  ⟨fun entry mem _ => ⟨entry,mem,rfl,rfl,rfl⟩,fun entry mem => ⟨entry,mem,rfl,rfl,rfl⟩, Int.le_refl _,Nat.le_refl _,rfl,rfl,rfl⟩

theorem Evicted.trans (left : Evicted before middle) (right : Evicted middle after) : Evicted before after := by
  refine ⟨?_,?_,Int.le_trans right.smaller left.smaller,Nat.le_trans right.shorter left.shorter,
    right.pending.trans left.pending,right.pendingBytes.trans left.pendingBytes,right.closed.trans left.closed⟩
  · intro entry mem busy
    obtain ⟨still,there,same⟩ := left.kept entry mem busy
    obtain ⟨last,final,again⟩ := right.kept still there (same.2.2 ▸ busy)
    exact ⟨last,final,same.trans again⟩
  intro last final
  obtain ⟨still,there,again⟩ := right.origin last final
  obtain ⟨entry,mem,same⟩ := left.origin still there
  exact ⟨entry,mem,same.trans again⟩

theorem Balanced.keyed (balanced : Balanced limits cache) : Keyed Entry.snapshotId cache.entries :=
  List.Nodup.sublist (List.Sublist.map _ (List.sublist_append_left _ _)) balanced.identified

theorem Balanced.absent (balanced : Balanced limits cache) (member : entry ∈ cache.entries) : ∀ gone ∈ cache.removed, gone.snapshotId ≠ entry.snapshotId := by
  have apart := (List.nodup_append.mp (by simpa [Keyed] using balanced.identified)).2.2
  intro gone there same
  exact apart entry.snapshotId (mem_map_of_mem member) gone.snapshotId (mem_map_of_mem there) same.symm

theorem get_some (found : cache.get snapshotId = some entry) : entry ∈ cache.entries ∧ entry.snapshotId = snapshotId :=
  find_some found

section
variable (balanced : Balanced limits cache) (member : entry ∈ cache.entries)
include balanced member

theorem remove_idle (idle : entry.readers = 0) :
    cache.remove entry = { cache with
      entries := drop Entry.snapshotId cache.entries entry.snapshotId
      removed := cache.removed++[entry]
      closedStreams := cache.closedStreams++[entry.stream]
      reserved := cache.reserved - entry.length } := by
  simp only [Cache.remove,idle,ne_eq,not_true_eq_false,if_false,drop_absent (balanced.absent member)]

theorem remove_evicted : Evicted cache (cache.remove entry) := by
  by_cases idle : entry.readers = 0
  · rw [remove_idle balanced member idle]
    have length := balanced.sized entry member
    have shorter := balanced.keyed.length_drop member
    refine ⟨?_,?_,?_,?_,rfl,rfl,rfl⟩
    · intro other there busy
      refine ⟨other,mem_drop.mpr ⟨there,fun same => ?_⟩,rfl,rfl,rfl⟩
      exact busy (balanced.keyed.unique there member same ▸ idle)
    · intro still there
      exact ⟨still,(mem_drop.mp there).1,rfl,rfl,rfl⟩
    · simp only; omega
    simp only; omega
  rw [Cache.remove,if_pos idle]
  exact .refl cache

theorem remove_balanced : Balanced limits (cache.remove entry) := by
  by_cases idle : entry.readers = 0
  · have evicted := remove_evicted balanced member
    rw [remove_idle balanced member idle] at evicted ⊢
    have keyed := balanced.keyed
    have order : (cache.entries++cache.removed).Perm (drop Entry.snapshotId cache.entries entry.snapshotId++(cache.removed++[entry])) := by
      rw [←List.append_assoc]
      exact ((keyed.split member).append_right _).trans (List.perm_append_singleton _ _).symm
    have length := balanced.sized entry member
    have shorter := keyed.length_drop member
    refine ⟨balanced.identified.perm order,balanced.exclusive.perm order,by simp [balanced.logged],?_,?_,?_,?_,
      Int.le_trans evicted.smaller balanced.bytes,?_,?_⟩
    · intro gone there
      rcases mem_append.mp there with old | new
      · exact balanced.unread gone old
      rw [mem_singleton.mp new,idle]
    · intro still there
      exact balanced.sized still (mem_drop.mp there).1
    · simp only [keyed.total_drop Entry.length member,balanced.reserved]; omega
    · simp only [keyed.total_drop Entry.readers member,idle,balanced.readers]; omega
    · have slots := balanced.slots
      simp only; omega
    exact balanced.readable
  rw [Cache.remove,if_pos idle]
  exact balanced
end

theorem sweep_evicts (balanced : Balanced limits cache) (readings : String → Reading) :
    Balanced limits (cache.sweep readings) ∧ Evicted cache (cache.sweep readings) := by
  have pass : ∀ (rest : List Entry) (current : Cache), Balanced limits current → Keyed Entry.snapshotId rest → (∀ entry ∈ rest, entry ∈ current.entries) →
      let swept := rest.foldl (fun c entry =>
        if stale entry (readings entry.snapshotId) && entry.readers == 0 then c.remove entry else c) current
      Balanced limits swept ∧ Evicted current swept := by
    intro rest
    induction rest with
    | nil => intro current ok _ _; exact ⟨ok,.refl current⟩
    | cons head rest ih =>
      intro current ok keyed here
      obtain ⟨fresh,others⟩ := List.nodup_cons.mp keyed
      simp only [List.foldl_cons]
      split
      · rename_i chosen
        have idle : head.readers = 0 := by simpa using (Bool.and_eq_true_iff.mp chosen).2
        have member := here head (by simp)
        obtain ⟨ok',evicted⟩ := ih _ (remove_balanced ok member) others (by
          intro entry there
          rw [remove_idle ok member idle]
          exact mem_drop.mpr ⟨here entry (by simp [there]),fun same => fresh (same ▸ mem_map_of_mem there)⟩)
        exact ⟨ok',(remove_evicted ok member).trans evicted⟩
      exact ih current ok others fun entry there => here entry (by simp [there])
  exact pass cache.entries cache balanced balanced.keyed fun _ member => member

theorem reclaim_evicts (short : Nat → Cache → Bool) (round : Nat) (cache : Cache) (balanced : Balanced limits cache) :
    Balanced limits (cache.reclaim short round).2 ∧ Evicted cache (cache.reclaim short round).2 ∧
      ((cache.reclaim short round).1 → ∃ last, short last (cache.reclaim short round).2 = false) := by
  induction round, cache using Cache.reclaim.induct short with
  | case1 round cache lacking none =>
    rw [Cache.reclaim,if_pos lacking]
    split
    · exact ⟨balanced,.refl cache,fun impossible => by cases impossible⟩
    rename_i found; cases none.symm.trans found
  | case2 round cache lacking entry found ih =>
    rw [Cache.reclaim,if_pos lacking]
    split
    · rename_i none; cases none.symm.trans found
    rename_i other again
    cases found.symm.trans again
    have mem := (Cache.idle_some found).1
    obtain ⟨ok,evicted,enough⟩ := ih (remove_balanced balanced mem)
    exact ⟨ok,(remove_evicted balanced mem).trans evicted,enough⟩
  | case3 round cache enough =>
    rw [Cache.reclaim,if_neg enough]
    exact ⟨balanced,.refl cache,fun _ => ⟨round,by simpa using enough⟩⟩

inductive ReserveEffect (limits : Limits) (cache : Cache) (length : Int) : Except Raised Int × Cache → Prop where
  | refused (balanced : Balanced limits denied) (evicted : Evicted cache denied) :
      ReserveEffect limits cache length (.error raised,denied)
  | granted (balanced : Balanced limits ready) (evicted : Evicted cache ready) (lit : cache.closed = false)
      (fits : ready.reserved + length ≤ limits.maxBytes) (room : ready.entries.length + ready.pending < limits.maxEntries) :
      ReserveEffect limits cache length (.ok length,{ ready with
        reserved := ready.reserved + length, pending := ready.pending + 1
        pendingBytes := ready.pendingBytes + length })

section
variable (balanced : Balanced limits cache)
include balanced

theorem reserve_effect (length : Int) (readings : String → Reading) (free : Nat → Int) :
    ReserveEffect limits cache length (cache.reserve limits length readings free) := by
  simp only [Cache.reserve]
  split
  · exact .refused balanced (.refl cache)
  rename_i lit
  obtain ⟨sweptOk,swept⟩ := sweep_evicts balanced readings
  obtain ⟨firstOk,first,roomy⟩ := reclaim_evicts (fun _ => Cache.crowded limits length) 0 _ sweptOk
  split
  · rename_i denied chosen
    rw [chosen] at firstOk first
    exact .refused firstOk (swept.trans first)
  rename_i trimmed chosen
  rw [chosen] at firstOk first roomy
  obtain ⟨secondOk,second,_⟩ := reclaim_evicts (fun round => Cache.diskShort limits length (free round)) 0 _ firstOk
  split
  · rename_i denied short
    rw [short] at secondOk second
    exact .refused secondOk ((swept.trans first).trans second)
  rename_i ready enough
  rw [enough] at secondOk second
  obtain ⟨_,spacious⟩ := roomy rfl
  obtain ⟨fits,room⟩ : trimmed.reserved + length ≤ limits.maxBytes ∧ trimmed.entries.length + trimmed.pending < limits.maxEntries := by
    simpa [Cache.crowded] using spacious
  have smaller := second.smaller
  have shorter := second.shorter
  have pending := second.pending
  simp only at smaller shorter pending
  exact .granted secondOk ((swept.trans first).trans second) (by simpa using lit) (by omega) (by omega)

theorem amend_balanced (member : entry ∈ cache.entries) (change : Entry → Entry)
    (identity : (change entry).snapshotId = entry.snapshotId ∧ (change entry).stream = entry.stream ∧ (change entry).length = entry.length) (count : Int)
    (counted : count = cache.readers - entry.readers + (change entry).readers) (limit : count ≤ limits.maxReaders) : Balanced limits { cache with
      entries := amend Entry.snapshotId cache.entries entry.snapshotId change, readers := count } := by
  have only : ∀ row ∈ cache.entries, row.snapshotId = entry.snapshotId → row = entry :=
    fun row there same => balanced.keyed.unique there member same
  have ids := amend_map Entry.snapshotId cache.entries entry.snapshotId Entry.snapshotId change (fun row there same => by rw [only row there same,identity.1])
  have streams := amend_map Entry.snapshotId cache.entries entry.snapshotId Entry.stream change (fun row there same => by rw [only row there same,identity.2.1])
  have lengths : total Entry.length (amend Entry.snapshotId cache.entries entry.snapshotId change) = total Entry.length cache.entries :=
    total_amend_same Entry.length change fun row there same => by rw [only row there same,identity.2.2]
  refine ⟨?_,?_,balanced.logged,balanced.unread,?_,?_,?_,balanced.bytes,?_,limit⟩
  · have old := balanced.identified
    simp only [Keyed,map_append] at old ⊢
    rwa [ids]
  · have old := balanced.exclusive
    simp only [Keyed,map_append] at old ⊢
    rwa [streams]
  · intro row there
    rcases mem_amend.mp there with ⟨old,_⟩ | ⟨old,here,same,rfl⟩
    · exact balanced.sized row old
    rw [only old here same,identity.2.2]
    exact balanced.sized entry member
  · simpa only [lengths] using balanced.reserved
  · simp only [balanced.keyed.total_amend Entry.readers member change,counted,balanced.readers]
  simpa only [length_amend] using balanced.slots

theorem reorder_balanced (order : cache.entries.Perm entries) : Balanced limits { cache with entries } := by
  refine ⟨balanced.identified.perm (order.append_right _),balanced.exclusive.perm (order.append_right _),balanced.logged,
    balanced.unread,fun row there => balanced.sized row (order.mem_iff.mpr there),?_,?_,balanced.bytes,?_,balanced.readable⟩
  · simpa only [total_perm Entry.length order] using balanced.reserved
  · simpa only [total_perm Entry.readers order] using balanced.readers
  simpa only [order.length_eq] using balanced.slots

theorem update_cached (member : entry ∈ cache.entries) (change : Entry → Entry) : cache.update entry.snapshotId change =
      { cache with entries := amend Entry.snapshotId cache.entries entry.snapshotId change } := by
  simp only [Cache.update,amend_absent change (balanced.absent member)]
end

theorem amended_member (member : entry ∈ cache.entries) (change : Entry → Entry) :
    change entry ∈ amend Entry.snapshotId cache.entries entry.snapshotId change :=
  mem_amend.mpr (.inr ⟨entry,member,rfl,rfl⟩)

theorem object_cached (balanced : Balanced limits cache) (member : entry ∈ cache.entries) : cache.object entry.snapshotId = some entry :=
  balanced.identified.find (List.mem_append_left _ member)

theorem marked_evicted (cache : Cache) (snapshotId : String) (change : Entry → Entry) (same : ∀ row ∈ cache.entries, Same row (change row)) :
    Evicted cache { cache with entries := amend Entry.snapshotId cache.entries snapshotId change } := by
  refine ⟨?_,?_,Int.le_refl _,by simp,rfl,rfl,rfl⟩
  · intro row there _
    by_cases here : row.snapshotId = snapshotId
    · exact ⟨change row,mem_amend.mpr (.inr ⟨row,there,here,rfl⟩),same row there⟩
    exact ⟨row,mem_amend.mpr (.inl ⟨there,here⟩),rfl,rfl,rfl⟩
  intro still there
  rcases mem_amend.mp there with ⟨old,_⟩ | ⟨row,old,_,rfl⟩
  · exact ⟨still,old,rfl,rfl,rfl⟩
  exact ⟨row,old,same row old⟩

theorem expire_evicts (balanced : Balanced limits cache) (snapshotId : String) :
    Balanced limits (cache.expire snapshotId) ∧ Evicted cache (cache.expire snapshotId) ∧
      ∀ still ∈ (cache.expire snapshotId).entries, still.snapshotId = snapshotId → still.readers ≠ 0 := by
  simp only [Cache.expire]
  cases found : cache.get snapshotId with
  | none => exact ⟨balanced,.refl cache,fun still there same => absurd same (find_none.mp found still there)⟩
  | some entry =>
    obtain ⟨member,rfl⟩ := get_some found
    have marked := amend_balanced balanced member Cache.markExpired ⟨rfl,rfl,rfl⟩ cache.readers (by simp [Cache.markExpired]) balanced.readable
    have evicted := marked_evicted cache entry.snapshotId Cache.markExpired fun _ _ => ⟨rfl,rfl,rfl⟩
    have there := amended_member member Cache.markExpired
    simp only [update_cached balanced member]
    split
    · rename_i idle
      have gone := remove_idle marked there idle
      refine ⟨remove_balanced marked there,evicted.trans (remove_evicted marked there),?_⟩
      intro _ left same
      rw [gone] at left
      exact absurd same (mem_drop.mp left).2
    rename_i busy
    refine ⟨marked,evicted,?_⟩
    intro _ left same
    rw [marked.keyed.unique left there same]
    exact busy

theorem close_evicts (balanced : Balanced limits cache) :
    Balanced limits cache.close ∧ Evicted { cache with closed := true } cache.close ∧
      ∀ still ∈ cache.close.entries, still.readers ≠ 0 := by
  have pass : ∀ (rest : List Entry) (current : Cache), Balanced limits current →
      (∀ still ∈ current.entries, still.readers = 0 → ∃ entry ∈ rest, entry.snapshotId = still.snapshotId) →
      let closed := rest.foldl (fun c entry => c.expire entry.snapshotId) current
      Balanced limits closed ∧ Evicted current closed ∧ ∀ still ∈ closed.entries, still.readers ≠ 0 := by
    intro rest
    induction rest with
    | nil =>
      intro current ok left
      exact ⟨ok,.refl current,fun still there idle => by obtain ⟨_,impossible,_⟩ := left still there idle; cases impossible⟩
    | cons head _ ih =>
      intro _ ok left
      obtain ⟨ok',evicted,busy⟩ := expire_evicts ok head.snapshotId
      obtain ⟨done,further,final⟩ := ih _ ok' (by
        intro still there idle
        obtain ⟨entry,old,same⟩ := evicted.origin still there
        obtain ⟨listed,place,here⟩ := left entry old (same.2.2.trans idle)
        rcases List.mem_cons.mp place with rfl | later
        · exact absurd idle (busy still there (same.1.symm.trans here.symm))
        exact ⟨listed,later,here.trans same.1⟩)
      exact ⟨done,evicted.trans further,final⟩
  have open' : Balanced limits { cache with closed := true } := ⟨balanced.identified,balanced.exclusive,balanced.logged,
    balanced.unread,balanced.sized,balanced.reserved,balanced.readers,balanced.bytes,balanced.slots,balanced.readable⟩
  exact pass cache.entries _ open' fun still there _ => ⟨still,there,rfl⟩

-- A release of a cached entry: one reader less, then the removal that a closed
-- cache or a stale entry makes due.
inductive ReleaseEffect (limits : Limits) (cache : Cache) (entry : Entry) : Cache → Prop where
  | returned (balanced : Balanced limits returned)
      (shape : returned = { cache with
        entries := amend Entry.snapshotId cache.entries entry.snapshotId Cache.giveBack, readers := cache.readers - 1 })
      (due : cache.closed = true → entry.readers ≠ 1) : ReleaseEffect limits cache entry returned
  | removed (balanced : Balanced limits returned)
      (shape : returned = { cache with
        entries := amend Entry.snapshotId cache.entries entry.snapshotId Cache.giveBack, readers := cache.readers - 1 })
      (last : entry.readers = 1) : ReleaseEffect limits cache entry (returned.remove (Cache.giveBack entry))

theorem release_effect (balanced : Balanced limits cache) (member : entry ∈ cache.entries) (reading : Reading) :
    ReleaseEffect limits cache entry (cache.release entry.snapshotId reading) := by
  have returned := amend_balanced balanced member Cache.giveBack ⟨rfl,rfl,rfl⟩ (cache.readers - 1)
    (by simp only [Cache.giveBack]; omega) (by have := balanced.readable; omega)
  simp only [Cache.release,object_cached balanced member,update_cached balanced member]
  split
  · rename_i due
    have last : (Cache.giveBack entry).readers = 0 := by simpa using (Bool.and_eq_true_iff.mp due).2
    exact .removed returned rfl (by simp only [Cache.giveBack] at last; omega)
  rename_i kept
  refine .returned returned rfl fun closed last => kept ?_
  simp [closed,Cache.giveBack,last]

inductive AcquireEffect (limits : Limits) (cache : Cache) (snapshotId : String) : Except Raised Entry × Cache → Prop where
  | refused (balanced : Balanced limits denied) (evicted : Evicted cache denied) :
      AcquireEffect limits cache snapshotId (.error raised,denied)
  | granted (entry : Entry) (member : entry ∈ cache.entries) (named : entry.snapshotId = snapshotId)
      (lit : cache.closed = false) (granted : Balanced limits { cache with
        entries := Cache.moveToEnd cache.entries (Cache.borrow entry), readers := cache.readers + 1 }) :
      AcquireEffect limits cache snapshotId (.ok (Cache.borrow entry),{ cache with
        entries := Cache.moveToEnd cache.entries (Cache.borrow entry), readers := cache.readers + 1 })

theorem move_perm (balanced : Balanced limits cache) (member : entry ∈ cache.entries) (change : Entry → Entry)
    (identity : (change entry).snapshotId = entry.snapshotId) :
    (amend Entry.snapshotId cache.entries entry.snapshotId change).Perm (Cache.moveToEnd cache.entries (change entry)) := by
  rw [Cache.moveToEnd,identity]
  exact (balanced.keyed.amended member change).trans (List.perm_append_singleton _ _).symm

theorem giveBack_borrow (entry : Entry) : Cache.giveBack (Cache.borrow entry) = entry := by
  simp [Cache.giveBack,Cache.borrow]

theorem granted_balanced (balanced : Balanced limits cache) (member : entry ∈ cache.entries)
    (room : cache.readers < limits.maxReaders) : Balanced limits { cache with
      entries := Cache.moveToEnd cache.entries (Cache.borrow entry), readers := cache.readers + 1 } := by
  have borrowed := amend_balanced balanced member Cache.borrow ⟨rfl,rfl,rfl⟩ (cache.readers + 1) (by simp only [Cache.borrow]; omega) (by omega)
  exact reorder_balanced borrowed (move_perm balanced member Cache.borrow rfl)

theorem rolled_back (cache : Cache) (entry : Entry) :
    amend Entry.snapshotId (Cache.moveToEnd cache.entries (Cache.borrow entry)) entry.snapshotId Cache.giveBack = Cache.moveToEnd cache.entries entry := by
  have others : amend Entry.snapshotId (drop Entry.snapshotId cache.entries entry.snapshotId) entry.snapshotId Cache.giveBack =
      drop Entry.snapshotId cache.entries entry.snapshotId :=
    amend_absent Cache.giveBack fun row there => (mem_drop.mp there).2
  have here : amend Entry.snapshotId [Cache.borrow entry] entry.snapshotId Cache.giveBack = [entry] := by
    simp [amend,Cache.borrow,Cache.giveBack]
  simp only [Cache.moveToEnd,amend,map_append]
  exact congrArg₂ _ others here

theorem mem_move : row ∈ Cache.moveToEnd entries entry ↔ (row ∈ entries ∧ row.snapshotId ≠ entry.snapshotId) ∨ row = entry := by
  simp [Cache.moveToEnd]

section
variable (balanced : Balanced limits cache)
include balanced

theorem moved_evicted (member : entry ∈ cache.entries) : Evicted cache { cache with entries := Cache.moveToEnd cache.entries entry } := by
  have order : cache.entries.Perm (Cache.moveToEnd cache.entries entry) :=
    (balanced.keyed.split member).trans (List.perm_append_singleton _ _).symm
  refine ⟨fun row there _ => ⟨row,order.mem_iff.mp there,rfl,rfl,rfl⟩,
    fun row there => ⟨row,order.mem_iff.mpr there,rfl,rfl,rfl⟩,Int.le_refl _,Nat.le_of_eq order.length_eq.symm,rfl,rfl,rfl⟩

theorem rollback_evicts (member : entry ∈ cache.entries)
    (room : cache.readers < limits.maxReaders) (later : Reading) :
    let restored := Cache.release { cache with
      entries := Cache.moveToEnd cache.entries (Cache.borrow entry), readers := cache.readers + 1 } entry.snapshotId later
    Balanced limits restored ∧ Evicted cache restored := by
  have granted := granted_balanced balanced member room
  have there : Cache.borrow entry ∈ Cache.moveToEnd cache.entries (Cache.borrow entry) := mem_move.mpr (.inr rfl)
  have back : ({ cache with
      entries := amend Entry.snapshotId (Cache.moveToEnd cache.entries (Cache.borrow entry)) entry.snapshotId Cache.giveBack
      readers := cache.readers + 1 - 1 } : Cache) = { cache with entries := Cache.moveToEnd cache.entries entry } := by
    rw [rolled_back cache entry,Int.add_sub_cancel]
  have effect := release_effect granted there later
  simp only [show (Cache.borrow entry).snapshotId = entry.snapshotId from rfl] at effect
  generalize Cache.release _ entry.snapshotId later = restored at effect ⊢
  cases effect with
  | returned ok shape =>
    simp only [show (Cache.borrow entry).snapshotId = entry.snapshotId from rfl,back] at shape
    exact ⟨ok,shape ▸ moved_evicted balanced member⟩
  | @removed returned ok shape last =>
    simp only [show (Cache.borrow entry).snapshotId = entry.snapshotId from rfl,back] at shape
    have still : entry ∈ returned.entries := shape ▸ mem_move.mpr (.inr rfl)
    rw [giveBack_borrow]
    exact ⟨remove_balanced ok still,(shape ▸ moved_evicted balanced member : Evicted cache returned).trans (remove_evicted ok still)⟩

theorem acquire_effect (snapshotId : String) (binding : List BindingValue) (digest : String) (reading : Reading) (leaseStarts : Bool) (later : Reading) :
    AcquireEffect limits cache snapshotId (cache.acquire limits snapshotId binding digest reading leaseStarts later) := by
  simp only [Cache.acquire]
  cases found : cache.get snapshotId with
  | none => exact .refused balanced (.refl cache)
  | some entry =>
    obtain ⟨mem,rfl⟩ := get_some found
    simp only
    split
    · split
      · exact .refused (remove_balanced balanced mem) (remove_evicted balanced mem)
      · exact .refused balanced (.refl cache)
    rename_i live
    split
    · exact .refused balanced (.refl cache)
    split
    · exact .refused balanced (.refl cache)
    split
    · exact .refused balanced (.refl cache)
    rename_i room
    split
    · exact .granted entry mem rfl (by simp at live; exact live.1) (granted_balanced balanced mem (by omega))
    obtain ⟨ok,evicted⟩ := rollback_evicts balanced mem (by omega) later
    exact .refused ok evicted
end

def owed (reservation : Reservation) : Int := if reservation.finished then 0 else reservation.length
def unfinished (reservation : Reservation) : Int := if reservation.finished then 0 else 1

structure Reserved (cache : Cache) (reservations : List Reservation) : Prop where
  keyed : Keyed Reservation.id reservations
  sized : ∀ reservation ∈ reservations, 0 ≤ reservation.length
  pendingBytes : cache.pendingBytes = total owed reservations
  pending : cache.pending = total unfinished reservations

def reads (snapshotId : String) (lease : Lease) : Int :=
  if lease.snapshotId = snapshotId ∧ lease.state ≠ .released then 1 else 0

-- Each entry counts its unreleased leases, and each of those still has the
-- entry it was granted, with the stream it reads from.
structure Leased (cache : Cache) (leases : List Lease) : Prop where
  keyed : Keyed Lease.id leases
  counted : ∀ entry ∈ cache.entries, entry.readers = total (reads entry.snapshotId) leases
  held : ∀ lease ∈ leases, lease.state ≠ .released → ∃ entry ∈ cache.entries,
    entry.snapshotId = lease.snapshotId ∧ entry.stream = lease.stream

def Drained (cache : Cache) : Prop := cache.closed = true → ∀ entry ∈ cache.entries, entry.readers ≠ 0

structure Accounted (limits : Limits) (world : World) : Prop where
  balanced : Balanced limits world.cache
  reserved : Reserved world.cache world.reservations
  leased : Leased world.cache world.leases
  drained : Drained world.cache

theorem reads_nonneg (snapshotId : String) (lease : Lease) : 0 ≤ reads snapshotId lease := by
  simp only [reads]
  split <;> omega

theorem Leased.busy (leased : Leased cache leases) (member : entry ∈ cache.entries)
    (there : lease ∈ leases) (same : lease.snapshotId = entry.snapshotId) (active : lease.state ≠ .released) : entry.readers ≠ 0 := by
  have most := total_ge (reads entry.snapshotId) (fun row _ => reads_nonneg _ row) there
  rw [leased.counted entry member]
  rw [reads,if_pos ⟨same,active⟩] at most
  omega

theorem Leased.evicted (leased : Leased before leases) (evicted : Evicted before after) : Leased after leases := by
  refine ⟨leased.keyed,?_,?_⟩
  · intro still there
    obtain ⟨entry,member,same⟩ := evicted.origin still there
    rw [←same.2.2,leased.counted entry member,same.1]
  intro lease there active
  obtain ⟨entry,member,named,stream⟩ := leased.held lease there active
  obtain ⟨still,left,same⟩ := evicted.kept entry member (leased.busy member there named.symm active)
  exact ⟨still,left,same.1.symm.trans named,same.2.1.symm.trans stream⟩

theorem Reserved.evicted (reserved : Reserved before reservations) (evicted : Evicted before after) : Reserved after reservations :=
  ⟨reserved.keyed,reserved.sized,evicted.pendingBytes.trans reserved.pendingBytes,evicted.pending.trans reserved.pending⟩

theorem Drained.evicted (drained : Drained before) (evicted : Evicted before after) : Drained after := by
  intro closed still there
  obtain ⟨entry,mem,same⟩ := evicted.origin still there
  exact same.2.2 ▸ drained (evicted.closed.symm.trans closed) entry mem

theorem Accounted.evicted (accounted : Accounted limits world) (balanced : Balanced limits after)
    (evicted : Evicted world.cache after) : Accounted limits { world with cache := after } :=
  ⟨balanced,accounted.reserved.evicted evicted,accounted.leased.evicted evicted,accounted.drained.evicted evicted⟩

theorem Leased.unmoved (leased : Leased before leases) (same : before.entries = after.entries) : Leased after leases :=
  ⟨leased.keyed,same ▸ leased.counted,same ▸ leased.held⟩

theorem Reserved.unmoved (reserved : Reserved before reservations)
    (bytes : after.pendingBytes = before.pendingBytes) (pending : after.pending = before.pending) : Reserved after reservations :=
  ⟨reserved.keyed,reserved.sized,bytes.trans reserved.pendingBytes,pending.trans reserved.pending⟩

variable {world : World} {id : Nat}

theorem reserve_preserves (accounted : Accounted limits world) (admissible : Admissible world (.reserve id length readings free)) :
    Accounted limits (advance limits world (.reserve id length readings free)) := by
  obtain ⟨sized,fresh⟩ := admissible
  have effect := reserve_effect accounted.balanced length readings free
  simp only [advance]
  generalize world.cache.reserve limits length readings free = outcome at effect ⊢
  cases effect with
  | refused balanced evicted => exact accounted.evicted balanced evicted
  | @granted ready balanced evicted lit fits room =>
    have reserved := accounted.reserved.evicted evicted
    refine ⟨⟨balanced.identified,balanced.exclusive,balanced.logged,balanced.unread,balanced.sized,?_,balanced.readers,
      fits,?_,balanced.readable⟩,⟨?_,?_,?_,?_⟩,?_,?_⟩
    · simp only [balanced.reserved]; omega
    · simp only; omega
    · exact reserved.keyed.add fresh
    · intro reservation there
      rcases mem_append.mp there with old | new
      · exact reserved.sized reservation old
      rw [mem_singleton.mp new]; exact sized
    · simp [reserved.pendingBytes,owed]
    · simp [reserved.pending,unfinished]
    · exact (accounted.leased.evicted evicted).unmoved rfl
    have drained := accounted.drained.evicted evicted
    exact drained

theorem store_fresh (fresh : ∀ row ∈ cache.entries, row.snapshotId ≠ entry.snapshotId) :
    cache.store entry = { cache with entries := cache.entries++[entry] } := by
  simp only [Cache.store,Cache.get,find_none.mpr fresh]

theorem pop_fresh (cache : Cache) (entry : Entry) (fresh : ∀ row ∈ cache.entries, row.snapshotId ≠ entry.snapshotId) :
    (cache.store entry).pop entry.snapshotId = cache := by
  have others : drop Entry.snapshotId (cache.entries++[entry]) entry.snapshotId = cache.entries := by
    have kept := drop_absent fresh
    simpa [drop] using kept
  simp only [store_fresh fresh,Cache.pop,others]

section
variable (accounted : Accounted limits world)
include accounted

theorem commit_preserves (admissible : Admissible world (.commit id snapshotId copied reading timerStarts)) :
    Accounted limits (advance limits world (.commit id snapshotId copied reading timerStarts)) := by
  have fresh : ∀ row ∈ world.cache.entries, row.snapshotId ≠ snapshotId :=
    fun row there => (admissible row (List.mem_append_left _ there)).1
  simp only [advance]
  cases found : find Reservation.id world.reservations id with
  | none => exact accounted
  | some reservation =>
    have keyed := accounted.reserved.keyed
    have unchanged := keyed.amend_self found
    obtain ⟨member,rfl⟩ := find_some found
    simp only [Cache.commit]
    split
    · rw [unchanged]; exact accounted
    rename_i usable
    obtain ⟨pending,lit⟩ : reservation.finished = false ∧ world.cache.closed = false := by simpa using usable
    split
    · rw [store_fresh fresh]
      have balanced := accounted.balanced
      have length := accounted.reserved.sized reservation member
      have slots := balanced.slots
      have order : (world.cache.entries++world.cache.removed++[Cache.enter limits reservation snapshotId copied reading]).Perm
          (world.cache.entries++[Cache.enter limits reservation snapshotId copied reading]++world.cache.removed) := by
        simp only [List.append_assoc]
        exact List.perm_append_comm.append_left _
      refine ⟨⟨?_,?_,balanced.logged,balanced.unread,?_,?_,?_,balanced.bytes,?_,balanced.readable⟩,⟨?_,?_,?_,?_⟩, ⟨accounted.leased.keyed,?_,?_⟩,?_⟩
      · exact (balanced.identified.add fun row there => (admissible row there).1).perm order
      · exact (balanced.exclusive.add fun row there => (admissible row there).2).perm order
      · intro row there
        rcases mem_append.mp there with old | new
        · exact balanced.sized row old
        rw [mem_singleton.mp new]; exact length
      · simp only [balanced.reserved,total_append,total_cons,total_nil,Cache.enter]; omega
      · simp only [balanced.readers,total_append,total_cons,total_nil,Cache.enter]; omega
      · simp only [List.length_append,List.length_cons,List.length_nil]; omega
      · exact keyed.amend _ fun row there same => by rw [keyed.unique there member same]
      · intro row there
        rcases mem_amend.mp there with ⟨old,_⟩ | ⟨_,_,_,rfl⟩
        · exact accounted.reserved.sized row old
        exact length
      · simp only [keyed.total_amend owed member,accounted.reserved.pendingBytes,owed,pending]; simp
      · simp only [keyed.total_amend unfinished member,accounted.reserved.pending,unfinished,pending]; simp
      · intro row there
        rcases mem_append.mp there with old | new
        · exact accounted.leased.counted row old
        rw [mem_singleton.mp new]
        have none : total (reads snapshotId) world.leases = total (fun _ => 0) world.leases := by
          refine total_congr _ fun lease listed => if_neg ?_
          rintro ⟨same,active⟩
          obtain ⟨row,cached,named,_⟩ := accounted.leased.held lease listed active
          exact fresh row cached (named.trans same)
        simpa [Cache.enter] using none.symm
      · intro lease listed active
        obtain ⟨row,cached,named⟩ := accounted.leased.held lease listed active
        exact ⟨row,List.mem_append_left _ cached,named⟩
      · intro closed
        exact absurd closed (by simp [lit])
    · have gone := pop_fresh world.cache (Cache.enter limits reservation snapshotId copied reading) fresh
      simp only [gone,unchanged]
      exact accounted

theorem closeReservation_preserves : Accounted limits (advance limits world (.closeReservation id)) := by
  simp only [advance]
  cases found : find Reservation.id world.reservations id with
  | none => exact accounted
  | some reservation =>
    have keyed := accounted.reserved.keyed
    have unchanged := keyed.amend_self found
    obtain ⟨member,rfl⟩ := find_some found
    simp only [Cache.closeReservation]
    split
    · rw [unchanged]; exact accounted
    rename_i pending
    have balanced := accounted.balanced
    have length := accounted.reserved.sized reservation member
    have bytes := balanced.bytes
    have slots := balanced.slots
    refine ⟨⟨balanced.identified,balanced.exclusive,balanced.logged,balanced.unread,balanced.sized,?_,balanced.readers,
      ?_,?_,balanced.readable⟩,⟨?_,?_,?_,?_⟩,accounted.leased.unmoved rfl,accounted.drained⟩
    · simp only [balanced.reserved]; omega
    · simp only; omega
    · simp only; omega
    · exact keyed.amend _ fun row there same => by rw [keyed.unique there member same]
    · intro row there
      rcases mem_amend.mp there with ⟨old,_⟩ | ⟨_,_,_,rfl⟩
      · exact accounted.reserved.sized row old
      exact length
    · simp only [keyed.total_amend owed member,accounted.reserved.pendingBytes,owed,pending]; simp
    simp only [keyed.total_amend unfinished member,accounted.reserved.pending,unfinished,pending]; simp

theorem acquire_preserves (admissible : Admissible world (.acquire id snapshotId binding digest deadline reading leaseStarts later)) :
    Accounted limits (advance limits world (.acquire id snapshotId binding digest deadline reading leaseStarts later)) := by
  have effect := acquire_effect accounted.balanced snapshotId binding digest reading leaseStarts later
  simp only [advance]
  generalize world.cache.acquire limits snapshotId binding digest reading leaseStarts later = outcome at effect ⊢
  cases effect with
  | refused balanced evicted => exact accounted.evicted balanced evicted
  | granted entry mem _ lit balanced =>
    have leased := accounted.leased
    refine ⟨balanced,accounted.reserved.unmoved rfl rfl,⟨leased.keyed.add admissible,?_,?_⟩, fun closed => absurd closed (by simp [lit])⟩
    · intro row there
      rcases mem_move.mp there with ⟨old,apart⟩ | rfl
      · have alone : reads row.snapshotId (grant id (Cache.borrow entry) deadline) = 0 := if_neg fun same => apart same.1.symm
        simp [leased.counted row old,alone]
      have one : reads entry.snapshotId (grant id (Cache.borrow entry) deadline) = 1 := if_pos ⟨rfl,nofun⟩
      have before := leased.counted entry mem
      simp only [Cache.borrow,total_append,total_cons,total_nil] at one ⊢
      omega
    intro lease there active
    rcases mem_append.mp there with old | new
    · obtain ⟨row,cached,same,stream⟩ := leased.held lease old active
      by_cases here : row.snapshotId = entry.snapshotId
      · cases accounted.balanced.keyed.unique cached mem here
        exact ⟨Cache.borrow entry,mem_move.mpr (.inr rfl),same,stream⟩
      exact ⟨row,mem_move.mpr (.inl ⟨cached,here⟩),same,stream⟩
    rw [mem_singleton.mp new]
    exact ⟨Cache.borrow entry,mem_move.mpr (.inr rfl),rfl,rfl⟩

theorem closeLease_preserves : Accounted limits (advance limits world (.closeLease id)) := by
  have leased := accounted.leased
  refine ⟨accounted.balanced,accounted.reserved,⟨?_,?_,?_⟩,accounted.drained⟩
  · refine leased.keyed.amend _ fun lease _ _ => ?_
    split <;> rfl
  · intro entry member
    rw [leased.counted entry member]
    refine (total_amend_same _ _ fun lease _ _ => ?_).symm
    split
    · rename_i taken; simp [reads,taken]
    rfl
  intro lease there active
  rcases mem_amend.mp there with ⟨old,_⟩ | ⟨lease',old,_,rfl⟩
  · exact leased.held lease old active
  split at active
  · rename_i taken
    obtain ⟨entry,cached,same⟩ := leased.held lease' old (by simp [taken])
    exact ⟨entry,cached,by simpa [taken] using same⟩
  rename_i other
  obtain ⟨entry,cached,same⟩ := leased.held lease' old active
  exact ⟨entry,cached,by simpa [other] using same⟩

theorem returned_leased (member : entry ∈ world.cache.entries)
    (there : lease ∈ world.leases) (named : entry.snapshotId = lease.snapshotId) (closing : lease.state = .closing)
    (shape : after.entries = amend Entry.snapshotId world.cache.entries entry.snapshotId Cache.giveBack) :
    Leased after (amend Lease.id world.leases lease.id fun held => { held with state := .released }) := by
  have leased := accounted.leased
  have keyed := accounted.balanced.keyed
  refine ⟨leased.keyed.amend _ fun _ _ _ => rfl,?_,?_⟩
  · intro row cached
    rw [shape] at cached
    rw [leased.keyed.total_amend _ there]
    rcases mem_amend.mp cached with ⟨old,apart⟩ | ⟨row,old,same,rfl⟩
    · have foreign : ¬lease.snapshotId = row.snapshotId := fun same => apart (same.symm.trans named.symm)
      simp [reads,foreign,leased.counted row old]
    obtain rfl := keyed.unique old member same
    have count := leased.counted row old
    have one : reads row.snapshotId lease = 1 := if_pos ⟨named.symm,by simp [closing]⟩
    have none : reads row.snapshotId { lease with state := .released } = 0 := if_neg (by simp)
    simp only [Cache.giveBack] at one none ⊢
    omega
  intro other listed active
  rw [shape]
  rcases mem_amend.mp listed with ⟨old,_⟩ | ⟨_,_,_,rfl⟩
  · obtain ⟨row,cached,same⟩ := leased.held other old active
    by_cases here : row.snapshotId = entry.snapshotId
    · obtain rfl := keyed.unique cached member here
      exact ⟨Cache.giveBack row,amended_member member Cache.giveBack,same⟩
    exact ⟨row,mem_amend.mpr (.inl ⟨cached,here⟩),same⟩
  exact absurd rfl active

theorem release_preserves : Accounted limits (advance limits world (.release id reading)) := by
  simp only [advance]
  cases found : find Lease.id world.leases id with
  | none => exact accounted
  | some lease =>
    obtain ⟨there,rfl⟩ := find_some found
    simp only
    split
    · rename_i closing
      obtain ⟨entry,member,named,_⟩ := accounted.leased.held lease there (by simp [closing])
      have effect := release_effect accounted.balanced member reading
      rw [named] at effect
      generalize world.cache.release lease.snapshotId reading = final at effect ⊢
      have drained : ∀ row ∈ amend Entry.snapshotId world.cache.entries entry.snapshotId Cache.giveBack,
          world.cache.closed → row.readers ≠ 0 ∨ row = Cache.giveBack entry := by
        intro row cached closed
        rcases mem_amend.mp cached with ⟨old,_⟩ | ⟨row,old,same,rfl⟩
        · exact .inl (accounted.drained closed row old)
        exact .inr (by rw [accounted.balanced.keyed.unique old member same])
      cases effect with
      | returned balanced shape due =>
        have entries : _ = amend _ world.cache.entries entry.snapshotId Cache.giveBack := congrArg Cache.entries shape
        refine ⟨balanced,accounted.reserved.unmoved (by rw [shape]) (by rw [shape]), returned_leased accounted member there named closing entries,?_⟩
        intro closed row cached
        have shut : world.cache.closed := by rw [shape] at closed; exact closed
        rcases drained row (entries ▸ cached) shut with busy | rfl
        · exact busy
        have more := due shut
        simp only [Cache.giveBack]; omega
      | @removed returned balanced shape last =>
        have entries : _ = amend _ world.cache.entries entry.snapshotId Cache.giveBack := congrArg Cache.entries shape
        have cached : Cache.giveBack entry ∈ returned.entries := entries ▸ amended_member member Cache.giveBack
        have idle : (Cache.giveBack entry).readers = 0 := by simp only [Cache.giveBack]; omega
        have evicted := remove_evicted balanced cached
        refine ⟨remove_balanced balanced cached,(accounted.reserved.unmoved (by rw [shape]) (by rw [shape])).evicted evicted,
          (returned_leased accounted member there named closing entries).evicted evicted,?_⟩
        intro closed row left
        have shut : world.cache.closed := by rw [evicted.closed,shape] at closed; exact closed
        rw [remove_idle balanced cached idle] at left
        obtain ⟨stays,apart⟩ := mem_drop.mp left
        rcases drained row (entries ▸ stays) shut with busy | rfl
        · exact busy
        exact absurd rfl apart
    exact accounted

theorem close_preserves : Accounted limits (advance limits world .close) := by
  obtain ⟨balanced,evicted,busy⟩ := close_evicts accounted.balanced
  refine ⟨balanced,?_,?_,fun _ => busy⟩
  · have marked : Reserved { world.cache with closed := true } world.reservations := accounted.reserved.unmoved rfl rfl
    exact marked.evicted evicted
  have marked : Leased { world.cache with closed := true } world.leases := accounted.leased.unmoved rfl
  exact marked.evicted evicted

theorem step_preserves (step : Step limits world event next) : Accounted limits next := by
  obtain ⟨rfl,admissible⟩ := step
  cases event with
  | reserve => exact reserve_preserves accounted admissible
  | commit => exact commit_preserves accounted admissible
  | closeReservation => exact closeReservation_preserves accounted
  | acquire => exact acquire_preserves accounted admissible
  | closeLease => exact closeLease_preserves accounted
  | release => exact release_preserves accounted
  | expire snapshotId =>
    obtain ⟨balanced,evicted,_⟩ := expire_evicts accounted.balanced snapshotId
    exact accounted.evicted balanced evicted
  | close => exact close_preserves accounted
end

theorem initial_accounted (limits : Limits) : Accounted limits .initial := by
  refine ⟨⟨?_,?_,rfl,?_,?_,rfl,rfl,?_,?_,?_⟩,⟨?_,?_,rfl,rfl⟩,⟨?_,?_,?_⟩,?_⟩
  · exact nodup_nil
  · exact nodup_nil
  · exact nofun
  · exact nofun
  · exact Int.le_trans (by decide) limits.bytes
  · exact Int.le_trans (by decide) limits.entries.1
  · exact Int.le_trans (by decide) limits.readers.1
  · exact nodup_nil
  · exact nofun
  · exact nodup_nil
  · exact nofun
  · exact nofun
  · exact fun _ => nofun

theorem runs_accounted (path : Runs (Step limits) .initial events world) : Accounted limits world :=
  path.preserves (Accounted limits) (fun _ _ _ accounted step => step_preserves accounted step) (initial_accounted limits)

def pendingReservations (world : World) : List Reservation := world.reservations.filter fun reservation => !reservation.finished

theorem owed_total (reservations : List Reservation) :
    total owed reservations = total Reservation.length (reservations.filter fun reservation => !reservation.finished) ∧
    total unfinished reservations = (reservations.filter fun reservation => !reservation.finished).length := by
  induction reservations with
  | nil => exact ⟨rfl,rfl⟩
  | cons head _ ih =>
    cases finished : head.finished with
    | true => simp [owed,unfinished,finished,ih.1,ih.2]
    | false => simp [owed,unfinished,finished,ih.1,ih.2]; omega

theorem open_streams (balanced : Balanced limits cache) (member : entry ∈ cache.entries) : entry.stream ∉ cache.closedStreams := by
  rw [balanced.logged]
  have apart := (List.nodup_append.mp (by simpa [Keyed] using balanced.exclusive)).2.2
  exact fun there => apart entry.stream (mem_map_of_mem member) entry.stream there rfl

structure Accounts (limits : Limits) (world : World) : Prop where
  reserved : world.cache.reserved = total Entry.length world.cache.entries + world.cache.pendingBytes
  pendingBytes : world.cache.pendingBytes = total Reservation.length (pendingReservations world)
  pending : world.cache.pending = (pendingReservations world).length
  readers : world.cache.readers = total Entry.readers world.cache.entries
  counted : ∀ entry ∈ world.cache.entries, entry.readers = total (reads entry.snapshotId) world.leases
  bytes : world.cache.reserved ≤ limits.maxBytes
  slots : world.cache.entries.length + world.cache.pending ≤ limits.maxEntries
  readable : world.cache.readers ≤ limits.maxReaders
  unread : ∀ entry ∈ world.cache.removed, entry.readers = 0
  held : ∀ lease ∈ world.leases, lease.state ≠ .released → lease.stream ∉ world.cache.closedStreams ∧
    ∃ entry ∈ world.cache.entries, entry.snapshotId = lease.snapshotId ∧ entry.stream = lease.stream
  once : world.cache.closedStreams.Nodup
  emptied : world.cache.closed = true → (∀ lease ∈ world.leases, lease.state = .released) →
    (∀ reservation ∈ world.reservations, reservation.finished = true) →
    world.cache.entries = [] ∧ world.cache.reserved = 0

theorem emptied_cache (accounted : Accounted limits world) (closed : world.cache.closed) (released : ∀ lease ∈ world.leases, lease.state = .released)
    (finished : ∀ reservation ∈ world.reservations, reservation.finished) : world.cache.entries = [] ∧ world.cache.reserved = 0 := by
  have empty : world.cache.entries = [] := by
    refine List.eq_nil_iff_forall_not_mem.mpr fun entry member => accounted.drained closed entry member ?_
    have none : total (reads entry.snapshotId) world.leases = total (fun _ => 0) world.leases :=
      total_congr _ fun lease there => if_neg fun reading => reading.2 (released lease there)
    rw [accounted.leased.counted entry member,none,total_zero]
  have none : total owed world.reservations = total (fun _ => 0) world.reservations :=
    total_congr _ fun reservation there => if_pos (finished reservation there)
  refine ⟨empty,?_⟩
  rw [accounted.balanced.reserved,empty,accounted.reserved.pendingBytes,none,total_zero]
  rfl

theorem snapshot_cache_accounting (limits : Limits) (events : List Event) (world : World)
    (path : Runs (Step limits) .initial events world) : Accounts limits world := by
  have accounted := runs_accounted path
  have balanced := accounted.balanced
  refine ⟨balanced.reserved,?_,?_,balanced.readers,accounted.leased.counted,balanced.bytes,balanced.slots,balanced.readable,
    balanced.unread,?_,?_,emptied_cache accounted⟩
  · exact accounted.reserved.pendingBytes.trans (owed_total _).1
  · exact accounted.reserved.pending.trans (owed_total _).2
  · intro lease there active
    obtain ⟨entry,member,named,stream⟩ := accounted.leased.held lease there active
    exact ⟨stream ▸ open_streams balanced member,entry,member,named,stream⟩
  rw [balanced.logged]
  have streams := balanced.exclusive
  simp only [Keyed,map_append] at streams
  exact streams.of_append_right

instance (world : World) : (event : Event) → Decidable (Admissible world event)
  | .reserve id length _ _ => inferInstanceAs (Decidable (0 ≤ length ∧ ∀ reservation ∈ world.reservations, reservation.id ≠ id))
  | .commit _ snapshotId copied _ _ => inferInstanceAs (Decidable (∀ entry ∈ world.cache.entries++world.cache.removed,
      entry.snapshotId ≠ snapshotId ∧ entry.stream ≠ copied.stream))
  | .acquire id _ _ _ _ _ _ _ => inferInstanceAs (Decidable (∀ lease ∈ world.leases, lease.id ≠ id))
  | .closeReservation _ => .isTrue trivial
  | .closeLease _ => .isTrue trivial
  | .release _ _ => .isTrue trivial
  | .expire _ => .isTrue trivial
  | .close => .isTrue trivial

def exampleLimits : Limits := ⟨100,10,2,2,60,by decide,by decide,by decide,by decide⟩
def exampleReading : Reading := ⟨1000,5⟩
def exampleEvents : List Event :=
  [.reserve 1 40 (fun _ => exampleReading) (fun _ => 500), .commit 1 "first" ⟨7,"digest",[],[]⟩ exampleReading false,
    .commit 1 "first" ⟨7,"digest",[],[]⟩ exampleReading true,
    .acquire 1 "first" [] "digest" 20 exampleReading false exampleReading,
    .acquire 2 "first" [] "digest" 20 exampleReading true exampleReading,
    .expire "first",.closeLease 2,.close,.release 2 exampleReading]

theorem snapshot_cache_accounting_example :
    let world := exampleEvents.foldl (advance exampleLimits) .initial
    Accounts exampleLimits world :=
  snapshot_cache_accounting exampleLimits exampleEvents _ (Runs.admitted (advance exampleLimits) .initial exampleEvents
    (by decide +kernel))
end LedgeTopOps.SnapshotAccounting
