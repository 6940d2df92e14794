import LedgeTopOps.AirspaceNotices

namespace LedgeTopOps.Airspace
open SnapshotFeeds KeyedRows

-- The special use airspace: areas and their reservations, as refreshSua keeps them.
inductive ReservationStatus where
  | active | upcoming | pending | notListed | expired | unknown
  deriving DecidableEq

inductive Listing where
  | hot | waiting | pending | other

def suaStatus (now : Int) (listing : Listing) (start stop : Option Int) : ReservationStatus :=
  if start = none ∧ stop = none then .notListed
  else if stop.any (· < now) then .expired
  else match listing with
    | .hot => .active
    | .waiting => .upcoming
    | .pending => .pending
    | .other => .unknown

-- A feature of the schedule; `selected` says that it is of Wisconsin and its box meets the region.
structure ScheduleFeature where
  selected : Bool
  (airspaceId gid schedule name airspaceType geometry : String)
  (lowAltitude highAltitude : Option String)
  listing : Listing
  (start stop : Option Int)
  (remarks updated : Option String)

structure Area where
  (id gid name airspaceType geometry : String)
  (lowAltitude highAltitude : Option String)
  deriving DecidableEq

structure Reservation where
  id : String
  area : Area
  status : ReservationStatus
  (start stop : Option Int)
  (remarks sourceUpdatedAt : Option String)
  deriving DecidableEq

def ScheduleFeature.areaId (f : ScheduleFeature) : String := f.airspaceId++":"++if f.gid = "" then f.airspaceId else f.gid

def ScheduleFeature.reservation (now : Int) (f : ScheduleFeature) : Reservation where
  id := f.areaId++":"++f.schedule
  area := ⟨f.areaId,f.gid,f.name,f.airspaceType,f.geometry,f.lowAltitude,f.highAltitude⟩
  status := suaStatus now f.listing f.start f.stop
  start := f.start
  stop := f.stop
  remarks := f.remarks
  sourceUpdatedAt := f.updated

def setReservation (rows : List Reservation) (c : Reservation) : List Reservation :=
  if rows.any (·.id = c.id) then amend Reservation.id rows c.id fun _ => c else rows++[c]

def desiredReservations (now : Int) (features : List ScheduleFeature) : List Reservation :=
  (((features.filter fun f => f.selected && f.airspaceId ≠ "").map (·.reservation now)).foldl setReservation []).mergeSort fun a b => a.id ≤ b.id

structure ReservationRow where
  (id areaId : String)
  status : ReservationStatus
  (start stop : Option Int)
  (lowAltitude highAltitude remarks sourceUpdatedAt : Option String)
  missing : Nat
  fingerprint : Option Reservation

-- `stale` are the reservations whose area was changed since their fingerprint was written. No
-- program reads it.
structure Reservations where
  areas : List Area
  rows : List ReservationRow
  stale : List String

def Reservation.row (c : Reservation) (status : ReservationStatus) (missing : Nat) (fingerprint : Option Reservation) : ReservationRow :=
  ⟨c.id,c.area.id,status,c.start,c.stop,c.area.lowAltitude,c.area.highAltitude,c.remarks,c.sourceUpdatedAt,missing,fingerprint⟩

inductive Half where
  | area | reserve

def Area.upsert (a : Area) (areas : List Area) : List Area :=
  if areas.any (·.id = a.id) then amend Area.id areas a.id fun old => { a with id := old.id } else areas++[a]

def Reservation.write (c : Reservation) (r : ReservationRow) : ReservationRow := { c.row c.status 0 (some c) with id := r.id }

def Reservation.upsert (c : Reservation) (rows : List ReservationRow) : List ReservationRow :=
  if rows.any (·.id = c.id) then amend ReservationRow.id rows c.id c.write else rows++[c.row c.status 0 (some c)]

def Reservations.piece (db : Reservations) (c : Reservation) : Half → Reservations
  | .area => { db with
      areas := c.area.upsert db.areas
      stale := if find Area.id db.areas c.area.id = some c.area then db.stale
        else (db.rows.filter (·.areaId = c.area.id)).map (·.id)++db.stale }
  | .reserve => { db with rows := c.upsert db.rows, stale := db.stale.filter (· ≠ c.id) }

def Reservations.apply (w : Write String Reservation Half) (db : Reservations) : Reservations :=
  match w with
  | .correct _ _ => db
  | .part c p => db.piece c p
  | .mark k => { db with rows := amend ReservationRow.id db.rows k fun r => { r with missing := 1 } }
  | .withdraw k => { db with rows := amend ReservationRow.id db.rows k fun r => { r with missing := r.missing + 1, status := .expired } }

def ReservationStatus.closed (status : ReservationStatus) : Bool := status = .expired
def Reservation.ended (now : Int) (c : Reservation) : Prop := c.status.closed = true ∨ ∃ stop, c.stop = some stop ∧ stop < now

def suaFeed : Feed Reservations String Reservation ReservationStatus Half where
  key := Reservation.id
  status := Reservation.status
  head db k := (find ReservationRow.id db.rows k).map fun r => ⟨r.fingerprint,r.missing,r.status,true⟩
  stored db := db.rows.map ReservationRow.id
  closed := ReservationStatus.closed
  group _ := [.area,.reserve]
  apply := Reservations.apply
  ended := Reservation.ended

def ReservationRow.expire (now : Int) (r : ReservationRow) : ReservationRow :=
  if !r.status.closed && r.status ≠ .notListed && r.stop.any (fun stop => stop / 1000 < now / 1000) then { r with status := .expired } else r

def Reservations.purge (db : Reservations) (now : Int) (old : String → Bool) : Reservations :=
  let rows := (db.rows.map (ReservationRow.expire now)).filter fun r => !(r.status.closed && old r.id)
  { db with
    rows := rows
    areas := db.areas.filter fun a => rows.any (·.areaId = a.id) }
end LedgeTopOps.Airspace
