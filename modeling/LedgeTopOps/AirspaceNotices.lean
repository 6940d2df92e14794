import LedgeTopOps.SnapshotFeeds
import LedgeTopOps.KeyedRows

namespace LedgeTopOps.Airspace
open SnapshotFeeds KeyedRows

-- The temporary flight restrictions: what one reading of the FAA's feeds says, and the tables
-- that refreshTfrs keeps of it. Times are milliseconds.
structure Interval where
  (start stop : Int)
  deriving DecidableEq

-- detail(): the schedule groups of a notice and the dates beside them.
structure Detail where
  issued : Option Int
  found : List Interval
  (effective expires : Option Int)

def Detail.start (d : Detail) : Option Int :=
  match d.found with
  | [] => d.effective
  | first :: rest => some (rest.foldl (fun earliest i => min earliest i.start) first.start)

def Detail.stop (d : Detail) : Option Int :=
  match d.found with
  | [] => d.expires
  | first :: rest => some (rest.foldl (fun latest i => max latest i.stop) first.stop)

inductive NoticeStatus where
  | scheduled | active | expired | withdrawn | unknown
  deriving DecidableEq

def tfrStatus (now : Int) (start stop : Option Int) : NoticeStatus :=
  if stop.any (· < now) then .expired
  else if start.any (now < ·) then .scheduled
  else if start.any (· ≤ now) && stop.any (now ≤ ·) then .active
  else .unknown

def statusForIntervals (now : Int) (intervals : List Interval) : NoticeStatus :=
  if intervals.isEmpty then .unknown
  else
    let statuses := intervals.map fun i => tfrStatus now (some i.start) (some i.stop)
    if .active ∈ statuses then .active
    else if .scheduled ∈ statuses then .scheduled
    else if statuses.all (· = .expired) then .expired
    else .unknown

structure Entry where
  (notam state : String)
  (facility type_ title description modified : Option String)

-- `geometry` is the serialised geometry, which its bounding box is a function of.
structure Feature where
  entry : Entry
  geometry : String

structure FaaTfrs where
  listed : List Entry
  features : List Feature
  details : String → Detail

def isWisconsinTfr (e : Entry) (features : List Feature) : Bool := e.state = "WI" || features.any (·.entry.state = "WI")

-- Map.set on the rows, under their NOTAM numbers.
def setEntry (rows : List Entry) (e : Entry) : List Entry :=
  if rows.any (·.notam = e.notam) then amend Entry.notam rows e.notam fun _ => e else rows++[e]

-- An entry of Wisconsin is not overwritten by one of an adjacent state.
def FaaTfrs.admits (rows : List Entry) (e : Entry) : Bool :=
  e.notam ≠ "" && ((find Entry.notam rows e.notam).all fun old => isWisconsinTfr e [] || !isWisconsinTfr old [])

def FaaTfrs.rows (faa : FaaTfrs) : List Entry :=
  let listed := faa.listed.foldl (fun rows e => if FaaTfrs.admits rows e then setEntry rows e else rows) []
  faa.features.foldl (fun rows f => if f.entry.notam = "" || rows.any (·.notam = f.entry.notam) then rows else rows++[f.entry]) listed

def FaaTfrs.geometries (faa : FaaTfrs) (key : String) : List Feature := faa.features.filter fun f => f.entry.notam ≠ "" && f.entry.notam = key

structure Notice where
  key : String
  (facility type_ : Option String)
  title : String
  description : Option String
  status : NoticeStatus
  (issued start stop : Option Int)
  geometryAvailable : Bool
  sourceUpdatedAt : Option String
  intervals : List Interval
  geometries : List String
  deriving DecidableEq

def FaaTfrs.notice (faa : FaaTfrs) (now : Int) (e : Entry) : Notice :=
  let info := faa.details e.notam
  let features := faa.geometries e.notam
  { key := e.notam
    facility := e.facility
    type_ := e.type_
    title := (e.description.or e.title).getD e.notam
    description := e.description
    status := if info.found.isEmpty then tfrStatus now info.start info.stop else statusForIntervals now info.found
    issued := info.issued
    start := info.start
    stop := info.stop
    geometryAvailable := !features.isEmpty
    sourceUpdatedAt := e.modified
    intervals := if info.found.isEmpty then (match info.start, info.stop with
      | some start, some stop => [⟨start,stop⟩]
      | _, _ => []) else info.found
    geometries := (features.map (·.geometry)).mergeSort (· ≤ ·) }

def FaaTfrs.desired (faa : FaaTfrs) (now : Int) : List Notice :=
  ((faa.rows.filter fun e => isWisconsinTfr e (faa.geometries e.notam)).map (faa.notice now)).mergeSort fun a b => a.key ≤ b.key

structure NoticeRow where
  key : String
  (state facility type_ : Option String)
  title : String
  description : Option String
  status : NoticeStatus
  (issued start stop : Option Int)
  geometryAvailable : Bool
  missing : Nat
  sourceUpdatedAt : Option String
  fingerprint : Option Notice
  deriving DecidableEq

-- `half` are the notices whose rewriting has begun and not ended. No program reads it.
structure Notices where
  rows : List NoticeRow
  intervals : List (String × Interval)
  geometries : List (String × String)
  half : List String

def Notices.intervalsOf (db : Notices) (k : String) : List Interval := (db.intervals.filter (·.1 = k)).map (·.2)
def Notices.geometriesOf (db : Notices) (k : String) : List String := (db.geometries.filter (·.1 = k)).map (·.2)

def Notice.row (c : Notice) (status : NoticeStatus) (missing : Nat) (fingerprint : Option Notice) : NoticeRow :=
  ⟨c.key,some "WI",c.facility,c.type_,c.title,c.description,status,c.issued,c.start,c.stop,c.geometryAvailable,missing,c.sourceUpdatedAt,fingerprint⟩

inductive Piece where
  | upsert | clearIntervals | clearGeometries | interval (i : Interval) | geometry (g : String) | vouch

def Notice.group (c : Notice) : List Piece :=
  [.upsert,.clearIntervals,.clearGeometries]++c.intervals.map .interval++c.geometries.map .geometry++[.vouch]

-- INSERT ... ON CONFLICT(notam_id) DO UPDATE keeps the fingerprint that is stored.
def Notice.write (c : Notice) (r : NoticeRow) : NoticeRow := { c.row c.status 0 r.fingerprint with key := r.key }

def Notice.upsert (c : Notice) (rows : List NoticeRow) : List NoticeRow :=
  if rows.any (·.key = c.key) then amend NoticeRow.key rows c.key c.write
  else rows++[c.row c.status 0 none]

def Notices.piece (db : Notices) (c : Notice) : Piece → Notices
  | .upsert => { db with rows := c.upsert db.rows, half := db.half.insert c.key }
  | .clearIntervals => { db with intervals := db.intervals.filter (·.1 ≠ c.key), half := db.half.insert c.key }
  | .clearGeometries => { db with geometries := db.geometries.filter (·.1 ≠ c.key), half := db.half.insert c.key }
  | .interval i => { db with intervals := db.intervals++[(c.key,i)], half := db.half.insert c.key }
  | .geometry g => { db with geometries := db.geometries++[(c.key,g)], half := db.half.insert c.key }
  | .vouch => { db with
      rows := amend NoticeRow.key db.rows c.key fun r => { r with fingerprint := some c }
      half := db.half.filter (· ≠ c.key) }

def Notices.apply (w : Write String Notice Piece) (db : Notices) : Notices :=
  match w with
  | .correct k state => { db with rows := amend NoticeRow.key db.rows k fun r => { r with state := some state, fingerprint := none } }
  | .part c p => db.piece c p
  | .mark k => { db with rows := amend NoticeRow.key db.rows k fun r => { r with missing := 1 } }
  | .withdraw k => { db with rows := amend NoticeRow.key db.rows k fun r => { r with missing := r.missing + 1, status := .withdrawn } }

def NoticeStatus.closed : NoticeStatus → Bool
  | .expired | .withdrawn => true
  | .scheduled | .active | .unknown => false

def Notice.ended (now : Int) (c : Notice) : Prop := c.status.closed = true ∨ ∃ stop, c.stop = some stop ∧ stop < now

def tfrFeed : Feed Notices String Notice NoticeStatus Piece where
  key := Notice.key
  status := Notice.status
  head db k := (find NoticeRow.key db.rows k).map fun r => ⟨r.fingerprint,r.missing,r.status,decide (k ∉ db.half)⟩
  stored db := db.rows.map NoticeRow.key
  closed := NoticeStatus.closed
  group := Notice.group
  apply := Notices.apply
  ended := Notice.ended

def Notices.corrections (db : Notices) (faa : FaaTfrs) (now : Int) : List (String × String) :=
  db.rows.filterMap fun r => (find Entry.notam faa.rows r.key).bind fun e =>
    if r.key ∉ (faa.desired now).map Notice.key ∧ e.state ≠ "" ∧ e.state ≠ "WI" ∧ r.state.getD "" ≠ e.state then some (r.key,e.state) else none

-- The statements of markAirspaceStaleAndPurge on the notices; `old` are the keys whose end, or
-- last update, lies before the retention cutoff.
def NoticeRow.expire (now : Int) (r : NoticeRow) : NoticeRow :=
  if !r.status.closed && r.stop.any (fun stop => stop / 1000 < now / 1000) then { r with status := .expired } else r

def Notices.purge (db : Notices) (now : Int) (old : String → Bool) : Notices :=
  let rows := db.rows.map (NoticeRow.expire now)
  let gone := fun k => rows.any fun r => r.key = k && r.status.closed && old r.key
  { db with
    rows := rows.filter fun r => !(r.status.closed && old r.key)
    intervals := db.intervals.filter fun i => !gone i.1
    geometries := db.geometries.filter fun g => !gone g.1 }
end LedgeTopOps.Airspace
