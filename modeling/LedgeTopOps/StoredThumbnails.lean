import LedgeTopOps.RendererAttempts

namespace LedgeTopOps.StoredThumbnails
open RendererAttempts (Status maxRecoveryAttempts terminalAttempt defaultLease fallbackGrace)

-- The thumbnail of one source version: its row, the object at its thumbnail_key, and all who read or write that key,
-- call by call, in seconds.
structure Job where
  status : Status
  attempt : Nat
  (lease notBefore thumbnailEtag : Option Nat)

-- `source` is the version in the custom metadata; `adoptable` says whether provider, profile
-- and size are those that the fallback accepts.
structure Thumbnail where
  (etag source : Nat)
  adoptable : Bool

-- `cleanup` is the row of image_thumbnail_cleanup_jobs for the key, with its artifact_etag.
structure Store where
  (now version : Nat)
  job : Option Job
  object : Option Thumbnail
  cleanup : Option (Option Nat)

def Job.running (job : Job) (attempt : Nat) : Bool := job.status = .processing && job.attempt = attempt
def Job.expired (job : Job) (now : Nat) : Bool := job.lease.all (· ≤ now)
def Job.leased (job : Job) (now : Nat) : Bool := job.lease.any (now < ·)
def Job.fallbackDue (job : Job) (now : Nat) : Bool := job.notBefore.all (· + fallbackGrace ≤ now)
def Job.current (job : Job) (attempt now : Nat) : Bool := job.running attempt && job.leased now
def Job.claimable (job : Job) (now : Nat) : Bool :=
  (job.status = .pending || (job.status = .processing && job.expired now)) && job.fallbackDue now

def Store.matching (s : Store) (condition : Job → Bool) : Bool := s.job.any condition
def Store.update (s : Store) (condition : Job → Bool) (change : Job → Job) : Store :=
  { s with job := s.job.map fun job => if condition job then change job else job }

inductive Pc where
  -- handleClaim
  | claimRead
  | claimLease (read : Nat)
  -- handleThumbnailUpload, of bytes with this etag
  | uploadRead (attempt : Nat) (etag : Nat)
  | uploadPut (etag : Nat)
  -- handleComplete
  | completeRead (attempt : Nat) (etag : Nat)
  | completeHead (attempt : Nat) (etag : Nat)
  | completeGet (attempt : Nat) (etag : Nat)
  | completeWrite (attempt : Nat) (etag : Nat)
  -- handleFail
  | failRead (attempt : Nat)
  | failWrite (attempt : Nat)
  -- processThumbnailJobAttempt
  | jobRead
  | jobClaim
  | jobWork (attempt : Nat)
  | jobReturn (attempt : Nat)
  | jobExisting (attempt : Nat) (etag : Nat)
  | jobAdopt (attempt : Nat) (found : Thumbnail) (occupied : Bool)
  | jobAdoptWrite (attempt : Nat) (etag : Nat) (occupied : Bool)
  | jobOccupied (attempt : Nat)
  | jobPut (attempt : Nat) (etag : Nat)
  | jobWinner (attempt : Nat)
  | jobFinal (attempt : Nat) (etag : Nat)
  | jobComplete (attempt : Nat) (etag : Nat)
  | jobRaced (attempt : Nat) (etag : Nat)
  | jobFail (attempt : Nat) (terminal : Bool) (clean : Option (Option Nat))
  -- scheduleThumbnailCleanup, then drainThumbnailCleanup for this key
  | schedule (artifact : Option Nat)
  | drainRead
  | drainReferenced (artifact : Option Nat)
  | drainArtifact (artifact : Nat)
  | drainDelete
  | drainHead
  | drainRevived
  | regenerate
  -- reconcileManagedThumbnailOrphans
  | orphanList
  | orphanReferenced (etag : Nat)
  | orphanHead (etag : Nat)
  -- recoverTransientThumbnailFailures, recoverExpiredThumbnailLeases
  | transientClaim
  | expiredClaim
  | halted

inductive Worked where
  | failed (terminal : Bool)
  | limited
  | rendered (etag : Nat)

-- `flag` answers what is not in the model: index, media kinds, error codes, an object's age, whether a cleanup is due
-- and claimable.
inductive Reply where
  | ok
  | flag (yes : Bool)
  | worked (result : Worked)

def done (s : Store) (next : Pc) : Reply → Option (Store × Pc)
  | .ok => some (s,next)
  | _ => none

def asked (s : Store) (next : Bool → Pc) : Reply → Option (Store × Pc)
  | .flag yes => some (s,next yes)
  | _ => none

def ready (etag : Nat) (job : Job) : Job := { job with status := .ready, thumbnailEtag := some etag, lease := none }

def Pc.call (s : Store) : Pc → Reply → Option (Store × Pc)
  | .claimRead => asked s fun chosen => match s.job with
      | some job => if chosen && job.status = .pending && job.notBefore.all (· ≤ s.now) && job.lease.all (· < s.now) then .claimLease job.attempt else .halted
      | none => .halted
  | .claimLease read => done (s.update (·.status = .pending) fun job =>
      { job with status := .processing, lease := some (s.now + defaultLease), attempt := read + 1 }) .halted
  | .uploadRead attempt etag => done s (if s.matching (·.current attempt s.now) then .uploadPut etag else .halted)
  -- The body has been read since; the put has no condition. Its metadata does not name the
  -- provider under the name the fallback looks for.
  | .uploadPut etag => done { s with object := some ⟨etag,s.version,false⟩ } .halted
  | .completeRead attempt etag => done s (if s.matching (·.current attempt s.now) then .completeHead attempt etag else .halted)
  | .completeHead attempt etag => done s (if s.object.any (·.etag = etag) then .completeGet attempt etag else .halted)
  | .completeGet attempt etag => asked s fun valid => if valid && s.object.any (·.etag = etag) then .completeWrite attempt etag else .halted
  | .completeWrite attempt etag => done (s.update (·.current attempt s.now) (ready etag)) .halted
  | .failRead attempt => done s (if s.matching (·.current attempt s.now) then .failWrite attempt else .halted)
  | .failWrite attempt => done (s.update (·.current attempt s.now) fun job =>
      if terminalAttempt ≤ attempt then { job with status := .failed, lease := none }
      else { job with status := .pending, lease := none, notBefore := some s.now }) .halted
  | .jobRead => done s (match s.job with
      | some job => if job.status ≠ .ready && job.status ≠ .failed && !(job.status = .processing && job.leased s.now) && job.fallbackDue s.now then .jobClaim
        else .halted
      | none => .halted)
  | .jobClaim => done
      (s.update (·.claimable s.now) fun job => { job with status := .processing, attempt := job.attempt + 1, lease := some (s.now + defaultLease) })
      (match s.job.filter (·.claimable s.now) with
        | some job => .jobWork (job.attempt + 1)
        | none => .halted)
  | .jobWork attempt => fun reply => match reply with
      | .worked (.failed terminal) => some (s,.jobFail attempt terminal none)
      | .worked .limited => some (s,.jobReturn attempt)
      | .worked (.rendered etag) => some (s,.jobExisting attempt etag)
      | _ => none
  | .jobReturn attempt => done (s.update (·.running attempt) fun job => { job with status := .pending, lease := none, notBefore := some s.now }) .halted
  | .jobExisting attempt etag => done s (match s.object with
      | some found => .jobAdopt attempt found true
      | none => .jobPut attempt etag)
  -- adoptExistingThumbnail: the metadata that was found, then the bytes under its etag.
  | .jobAdopt attempt found occupied => asked s fun valid =>
      if valid && found.adoptable && found.source = s.version && s.object.any (·.etag = found.etag) then .jobAdoptWrite attempt found.etag occupied
      else if occupied then .jobOccupied attempt else .jobFail attempt true none
  | .jobAdoptWrite attempt etag occupied => done (s.update (·.running attempt) (ready etag))
      (if s.matching (·.running attempt) then .halted else if occupied then .jobOccupied attempt else .jobFail attempt true none)
  | .jobOccupied attempt => done s (if s.matching (·.status = .ready) then .halted else .jobFail attempt true (some none))
  -- If-None-Match: *
  | .jobPut attempt etag => done { s with object := s.object.or (some ⟨etag,s.version,true⟩) }
      (if s.object.isSome then .jobWinner attempt else .jobFinal attempt etag)
  | .jobWinner attempt => done s (match s.object with
      | some found => .jobAdopt attempt found false
      | none => .jobFail attempt true none)
  | .jobFinal attempt etag => done s (.jobComplete attempt etag)
  | .jobComplete attempt etag => done (s.update (·.running attempt) (ready etag))
      (if s.matching (·.running attempt) then .halted else .jobRaced attempt etag)
  | .jobRaced attempt etag => done s (if s.matching (·.status = .ready) then .halted else .jobFail attempt true (some (some etag)))
  | .jobFail attempt terminal clean => done
      (s.update (·.running attempt) fun job => { job with status := if terminal then .failed else .pending, lease := none })
      (match clean with
        | some artifact => .schedule artifact
        | none => .halted)
  | .schedule artifact => done { s with cleanup := some artifact } .drainRead
  | .drainRead => asked s fun claimed => match s.cleanup with
      | some artifact => if claimed then .drainReferenced artifact else .halted
      | none => .halted
  | .drainReferenced artifact => done s (if s.matching (·.status ≠ .failed) then .halted else match artifact with
      | some etag => .drainArtifact etag
      | none => .drainDelete)
  | .drainArtifact artifact => done s (if s.object.any (·.etag ≠ artifact) then .halted else .drainDelete)
  | .drainDelete => done { s with object := none } .drainHead
  -- An object that is there again is an error, and the row is not looked at.
  | .drainHead => done s (if s.object.isSome then .halted else .drainRevived)
  | .drainRevived => done s (if s.matching (·.status ≠ .failed) then .regenerate else .halted)
  | .regenerate => done (s.update (·.status ≠ .failed) fun job =>
      { job with status := .pending, thumbnailEtag := none, lease := none, notBefore := some s.now }) .halted
  | .orphanList => asked s fun old => match s.object with
      | some found => if old then .orphanReferenced found.etag else .halted
      | none => .halted
  | .orphanReferenced etag => done s (if s.matching (·.status ≠ .failed) then .halted else .orphanHead etag)
  | .orphanHead etag => asked s fun old => if old && s.object.any (·.etag = etag) then .schedule (some etag) else .halted
  | .transientClaim => fun reply => match reply with
      | .flag due => some (s.update (fun job => due && job.status = .failed && job.attempt < maxRecoveryAttempts) fun job =>
          { job with status := .pending, attempt := job.attempt + 1, lease := none, notBefore := some s.now },.halted)
      | _ => none
  | .expiredClaim => done (s.update (fun job => job.status = .processing && job.expired s.now && job.attempt < maxRecoveryAttempts) fun job =>
      { job with status := .pending, lease := none }) .halted
  | .halted => fun _ => none

structure World where
  store : Store
  flows : List Pc

inductive Action where
  | claim
  | upload (attempt etag : Nat)
  | complete (attempt etag : Nat)
  | fail (attempt : Nat)
  | process
  | clean (artifact : Option Nat)
  | drain
  | reconcile
  | recoverTransient
  | recoverExpired
  | tick (seconds : Nat)
  | reply (flow : Nat) (reply : Reply)

def World.begin (w : World) (pc : Pc) : World := { w with flows := w.flows++[pc] }

def next (w : World) : Action → Option World
  | .claim => some (w.begin .claimRead)
  | .upload attempt etag => some (w.begin (.uploadRead attempt etag))
  | .complete attempt etag => some (w.begin (.completeRead attempt etag))
  | .fail attempt => some (w.begin (.failRead attempt))
  | .process => some (w.begin .jobRead)
  | .clean artifact => some (w.begin (.schedule artifact))
  | .drain => some (w.begin .drainRead)
  | .reconcile => some (w.begin .orphanList)
  | .recoverTransient => some (w.begin .transientClaim)
  | .recoverExpired => some (w.begin .expiredClaim)
  | .tick seconds => some { w with store := { w.store with now := w.store.now + seconds } }
  | .reply index reply => (w.flows[index]?).bind fun pc => (pc.call w.store reply).map fun step => ⟨step.1,w.flows.set index step.2⟩
end LedgeTopOps.StoredThumbnails
