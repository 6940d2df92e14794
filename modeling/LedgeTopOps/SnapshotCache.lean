import LedgeTopOps.KeyedRows
import LedgeTopOps.StepRuns

namespace LedgeTopOps.SnapshotCache
open KeyedRows StepRuns

-- The limits the constructor accepts; the byte limit is checked by the gateway
-- that builds the cache.
structure Limits where
  (maxBytes minimumFree maxEntries maxReaders ttl : Int)
  bytes : 1 ≤ maxBytes
  entries : 1 ≤ maxEntries ∧ maxEntries ≤ 4096
  readers : 1 ≤ maxReaders ∧ maxReaders ≤ 256
  time : 1 ≤ ttl ∧ ttl ≤ 1800

inductive BindingValue where
  | text (value : String)
  | number (value : Int)
deriving DecidableEq

structure Entry where
  snapshotId : String
  stream : Nat
  length : Int
  sha256 : String
  binding : List BindingValue
  source : List Int
  expiresAt : Int
  monotonicExpiry : Rat
  readers : Int
  expired : Bool

-- `entries` is the ordered dictionary; `removed` keeps the entries that left it, since a lease refers to the object.
structure Cache where
  (entries removed : List Entry)
  (reserved pending pendingBytes readers : Int)
  closed : Bool
  closedStreams : List Nat

def Cache.empty : Cache := ⟨[],[],0,0,0,0,false,[]⟩

structure Reading where
  (clock monotonic : Rat)

inductive Raised where
  | denied (code : String) (status : Nat)
  | timerFailed

def cacheUnavailable : Raised := .denied "snapshot-cache-unavailable" 503
def quotaExceeded : Raised := .denied "snapshot-quota-exceeded" 507
def snapshotUnavailable : Raised := .denied "snapshot-unavailable" 409
def versionChanged : Raised := .denied "content-version-changed" 412
def gatewayBusy : Raised := .denied "gateway-busy" 503

def stale (entry : Entry) (reading : Reading) : Bool :=
  entry.expired || decide ((entry.expiresAt : Rat) ≤ reading.clock) || decide (entry.monotonicExpiry ≤ reading.monotonic)

namespace Cache

def get (cache : Cache) (snapshotId : String) : Option Entry := find Entry.snapshotId cache.entries snapshotId
def object (cache : Cache) (snapshotId : String) : Option Entry :=
  find Entry.snapshotId (cache.entries++cache.removed) snapshotId

def update (cache : Cache) (snapshotId : String) (change : Entry → Entry) : Cache :=
  { cache with
    entries := amend Entry.snapshotId cache.entries snapshotId change
    removed := amend Entry.snapshotId cache.removed snapshotId change }

def remove (cache : Cache) (entry : Entry) : Cache :=
  if entry.readers ≠ 0 then cache else
  { cache with
    entries := drop Entry.snapshotId cache.entries entry.snapshotId
    removed := drop Entry.snapshotId cache.removed entry.snapshotId++[entry]
    closedStreams := cache.closedStreams++[entry.stream]
    reserved := cache.reserved - entry.length }

def idle (cache : Cache) : Option Entry := cache.entries.find? fun entry => entry.readers == 0

def sweep (cache : Cache) (readings : String → Reading) : Cache :=
  cache.entries.foldl (fun current entry =>
    if stale entry (readings entry.snapshotId) && entry.readers == 0 then current.remove entry else current) cache

variable {cache : Cache}

theorem idle_some (found : cache.idle = some entry) : entry ∈ cache.entries ∧ entry.readers = 0 :=
  ⟨List.mem_of_find?_eq_some found,by simpa using List.find?_some found⟩

theorem remove_shrinks (mem : entry ∈ cache.entries) (unread : entry.readers = 0) : (cache.remove entry).entries.length < cache.entries.length := by
  simp only [remove,unread,ne_eq,not_true_eq_false,if_false,drop]
  exact List.length_filter_lt_length_iff_exists.mpr ⟨entry,mem,by simp⟩

-- The two loops of reserve: while space is short, remove the first idle entry.
def reclaim (short : Nat → Cache → Bool) (round : Nat) (cache : Cache) : Bool × Cache :=
  if short round cache then
    match found : cache.idle with
    | none => (false,cache)
    | some entry => reclaim short (round+1) (cache.remove entry)
  else (true,cache)
termination_by cache.entries.length
decreasing_by exact remove_shrinks (idle_some found).1 (idle_some found).2

def crowded (limits : Limits) (length : Int) (cache : Cache) : Bool :=
  decide (limits.maxBytes < cache.reserved + length) || decide (limits.maxEntries ≤ cache.entries.length + cache.pending)

def diskShort (limits : Limits) (length free : Int) (cache : Cache) : Bool :=
  decide (free < cache.pendingBytes + length + limits.minimumFree)

def reserve (limits : Limits) (cache : Cache) (length : Int) (readings : String → Reading) (free : Nat → Int) :
    Except Raised Int × Cache :=
  if cache.closed then (.error cacheUnavailable,cache) else
  match (cache.sweep readings).reclaim (fun _ => crowded limits length) 0 with
  | (false,denied) => (.error quotaExceeded,denied)
  | (true,trimmed) => match trimmed.reclaim (fun round => diskShort limits length (free round)) 0 with
    | (false,denied) => (.error quotaExceeded,denied)
    | (true,ready) => (.ok length,{ ready with
        reserved := ready.reserved + length, pending := ready.pending + 1
        pendingBytes := ready.pendingBytes + length })
end Cache

structure Reservation where
  id : Nat
  length : Int
  finished : Bool

-- What prepare_snapshot hands over: the copied file, its digest and its binding.
structure Copied where
  stream : Nat
  digest : String
  binding : List BindingValue
  source : List Int

def truncate (value : Rat) : Int := value.num.tdiv value.den

namespace Cache

-- The dictionary assignment entries[entry.snapshot_id] = entry.
def store (cache : Cache) (entry : Entry) : Cache :=
  { cache with entries := match cache.get entry.snapshotId with
    | some _ => amend Entry.snapshotId cache.entries entry.snapshotId fun _ => entry
    | none => cache.entries++[entry] }

def pop (cache : Cache) (snapshotId : String) : Cache :=
  { cache with entries := drop Entry.snapshotId cache.entries snapshotId }

def enter (limits : Limits) (reservation : Reservation) (snapshotId : String) (copied : Copied) (reading : Reading) : Entry :=
  ⟨snapshotId,copied.stream,reservation.length,copied.digest,copied.binding,copied.source,
    truncate reading.clock + limits.ttl,reading.monotonic + limits.ttl,0,false⟩

def commit (limits : Limits) (cache : Cache) (reservation : Reservation) (snapshotId : String) (copied : Copied)
    (reading : Reading) (timerStarts : Bool) : Except Raised Entry × Cache × Reservation :=
  if reservation.finished || cache.closed then (.error cacheUnavailable,cache,reservation) else
  let entry := enter limits reservation snapshotId copied reading
  let stored := cache.store entry
  if timerStarts then
    (.ok entry,{ stored with
      pending := stored.pending - 1, pendingBytes := stored.pendingBytes - reservation.length },
      { reservation with finished := true })
  else (.error .timerFailed,stored.pop entry.snapshotId,reservation)

def closeReservation (cache : Cache) (reservation : Reservation) : Cache × Reservation :=
  if reservation.finished then (cache,reservation) else
  ({ cache with
    pending := cache.pending - 1, pendingBytes := cache.pendingBytes - reservation.length
    reserved := cache.reserved - reservation.length }, { reservation with finished := true })

def moveToEnd (entries : List Entry) (entry : Entry) : List Entry :=
  drop Entry.snapshotId entries entry.snapshotId++[entry]

def borrow (entry : Entry) : Entry := { entry with readers := entry.readers + 1 }
def giveBack (entry : Entry) : Entry := { entry with readers := entry.readers - 1 }

-- release, and the rollback of a lease whose timer did not start.
def release (cache : Cache) (snapshotId : String) (reading : Reading) : Cache :=
  match cache.object snapshotId with
  | none => cache
  | some entry =>
    let returned := { cache.update snapshotId giveBack with readers := cache.readers - 1 }
    if (returned.closed || stale (giveBack entry) reading) && (giveBack entry).readers == 0 then
      returned.remove (giveBack entry)
    else returned

def acquire (limits : Limits) (cache : Cache) (snapshotId : String) (binding : List BindingValue) (digest : String)
    (reading : Reading) (leaseStarts : Bool) (later : Reading) : Except Raised Entry × Cache :=
  match cache.get snapshotId with
  | none => (.error snapshotUnavailable,cache)
  | some entry =>
    if cache.closed || stale entry reading then
      (.error snapshotUnavailable,if entry.readers = 0 then cache.remove entry else cache)
    else if entry.binding ≠ binding then (.error snapshotUnavailable,cache)
    else if entry.sha256 ≠ digest then (.error versionChanged,cache)
    else if limits.maxReaders ≤ cache.readers then (.error gatewayBusy,cache)
    else
      let granted := { cache with entries := moveToEnd cache.entries (borrow entry), readers := cache.readers + 1 }
      if leaseStarts then (.ok (borrow entry),granted)
      else (.error .timerFailed,granted.release snapshotId later)

def markExpired (entry : Entry) : Entry := { entry with expired := true }

def expire (cache : Cache) (snapshotId : String) : Cache :=
  match cache.get snapshotId with
  | none => cache
  | some entry =>
    let marked := cache.update snapshotId markExpired
    if entry.readers = 0 then marked.remove (markExpired entry) else marked

def close (cache : Cache) : Cache :=
  cache.entries.foldl (fun current entry => current.expire entry.snapshotId) { cache with closed := true }
end Cache

-- closing: the lease's flag is set and its lock held, the cache not yet entered.
inductive LeaseState where
  | open
  | closing
  | released
deriving DecidableEq

structure Lease where
  id : Nat
  snapshotId : String
  stream : Nat
  length : Int
  sha256 : String
  source : List Int
  deadline : Rat
  state : LeaseState

-- The cache with the reservations and leases that its callers hold.
structure World where
  cache : Cache
  reservations : List Reservation
  leases : List Lease

def World.initial : World := ⟨.empty,[],[]⟩

inductive Event where
  | reserve (id : Nat) (length : Int) (readings : String → Reading) (free : Nat → Int)
  | commit (id : Nat) (snapshotId : String) (copied : Copied) (reading : Reading) (timerStarts : Bool)
  | closeReservation (id : Nat)
  | acquire (id : Nat) (snapshotId : String) (binding : List BindingValue) (digest : String) (deadline : Rat)
      (reading : Reading) (leaseStarts : Bool) (later : Reading)
  | closeLease (id : Nat)
  | release (id : Nat) (reading : Reading)
  | expire (snapshotId : String)
  | close

def grant (id : Nat) (entry : Entry) (deadline : Rat) : Lease :=
  ⟨id,entry.snapshotId,entry.stream,entry.length,entry.sha256,entry.source,deadline,.open⟩

def advance (limits : Limits) (world : World) : Event → World
  | .reserve id length readings free => match world.cache.reserve limits length readings free with
    | (.error _,cache) => { world with cache }
    | (.ok length,cache) => { world with cache, reservations := world.reservations++[⟨id,length,false⟩] }
  | .commit id snapshotId copied reading timerStarts => match find Reservation.id world.reservations id with
    | none => world
    | some reservation =>
      let (_,cache,after) := world.cache.commit limits reservation snapshotId copied reading timerStarts
      { world with cache, reservations := amend Reservation.id world.reservations id fun _ => after }
  | .closeReservation id => match find Reservation.id world.reservations id with
    | none => world
    | some reservation =>
      let (cache,after) := world.cache.closeReservation reservation
      { world with cache, reservations := amend Reservation.id world.reservations id fun _ => after }
  | .acquire id snapshotId binding digest deadline reading leaseStarts later =>
    match world.cache.acquire limits snapshotId binding digest reading leaseStarts later with
    | (.error _,cache) => { world with cache }
    | (.ok entry,cache) => { world with cache, leases := world.leases++[grant id entry deadline] }
  | .closeLease id =>
    { world with leases := amend Lease.id world.leases id fun lease =>
        if lease.state = .open then { lease with state := .closing } else lease }
  | .release id reading => match find Lease.id world.leases id with
    | none => world
    | some lease => if lease.state = .closing then
        { world with
          cache := world.cache.release lease.snapshotId reading
          leases := amend Lease.id world.leases id fun held => { held with state := .released } }
      else world
  | .expire snapshotId => { world with cache := world.cache.expire snapshotId }
  | .close => { world with cache := world.cache.close }

-- What callers and platform guarantee: no file length is negative, uuid4 does not repeat, each preparation copies
-- into its own file, and every reservation and lease is its own object.
def Admissible (world : World) : Event → Prop
  | .reserve id length _ _ => 0 ≤ length ∧ ∀ reservation ∈ world.reservations, reservation.id ≠ id
  | .commit _ snapshotId copied _ _ => ∀ entry ∈ world.cache.entries++world.cache.removed,
      entry.snapshotId ≠ snapshotId ∧ entry.stream ≠ copied.stream
  | .acquire id _ _ _ _ _ _ _ => ∀ lease ∈ world.leases, lease.id ≠ id
  | _ => True

def Step (limits : Limits) : World → Event → World → Prop :=
  Guarded (fun before event after => advance limits before event = after) Admissible
end LedgeTopOps.SnapshotCache
