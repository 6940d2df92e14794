import LedgeTopOps.AtomicPrograms

namespace LedgeTopOps.UploadVerification
open AtomicPrograms

inductive Status where
  | quarantined | accepted
deriving DecidableEq

inductive VerificationState where
  | awaitingVerification | scanning | retry | verified
deriving DecidableEq

inductive PickupState where
  | awaitingPickup | scanning | retry | accepted
deriving DecidableEq

structure Lease where
  attemptCount : Nat
  (lastAttemptAt nextAttemptAt : Option Nat)
  (lastErrorCode claimToken : Option String)
  leaseExpiresAt : Option Nat

structure Upload where
  status : Status
  verificationState : VerificationState
  verification : Lease
  (verifiedSha256 verifiedObjectEtag : Option String)
  verifiedObjectBytes : Option Nat
  verifiedObjectVersion : Option String
  verifiedAt : Option Nat
  verificationReceiptToken : Option String
  pickupState : PickupState
  pickup : Lease

structure R2Object where
  size : Nat
  (etag version body : String)

-- What a call of a request has seen of the key and the row. Nothing reads it.
structure Sight where
  name : Nat
  object : Option R2Object
  row : Upload

structure Store where
  row : Upload
  object : Option R2Object
  now : Nat
  sights : List Sight

-- Etags, digests and error codes have letters of ASCII only.
def toLowerCase (text : String) : String := String.ofList (text.toList.map Char.toLower)
def leaseSeconds : Nat := 15 * 60

section
variable (lease : Lease) (now : Nat)

-- lease_expires_at IS NOT NULL AND datetime(lease_expires_at)>datetime('now')
def Lease.unexpired : Bool := lease.leaseExpiresAt.any fun expires => decide (now < expires)
def Lease.lapsed : Bool := lease.leaseExpiresAt.all fun expires => decide (expires ≤ now)
def Lease.due : Bool := lease.nextAttemptAt.any fun at_ => decide (at_ ≤ now)
def Lease.heldBy (token : String) : Bool := decide (lease.claimToken = some token)
def Lease.claimed (token : String) : Lease := ⟨lease.attemptCount + 1,some now,none,none,some token,some (now + leaseSeconds)⟩
def Lease.extended : Lease := { lease with leaseExpiresAt := some (now + leaseSeconds) }
def Lease.retried (seconds : Nat) (code : String) : Lease :=
  { lease with lastAttemptAt := some now,nextAttemptAt := some (now + seconds),lastErrorCode := some (toLowerCase code),claimToken := none,leaseExpiresAt := none }
def Lease.released (seconds : Nat) (code : String) : Lease :=
  { lease with nextAttemptAt := some (now + seconds),lastErrorCode := some code,claimToken := none,leaseExpiresAt := none }
end

structure ProofIdentity where
  objectEtag : String
  objectBytes : Nat
  objectVersion : Option String

inductive VerificationStatus where
  | scanning (claimToken : String)
  | heartbeat (claimToken : String)
  | retry (claimToken : String) (retryAfterSeconds : Nat) (errorCode : String)
  | verified (claimToken : String) (identity : ProofIdentity) (sha256 : String)
  | invalidate (retryAfterSeconds : Nat) (errorCode : String) (identity : ProofIdentity)

inductive PickupStatus where
  | scanning (claimToken : String)
  | heartbeat (claimToken : String)
  | retry (claimToken : String) (retryAfterSeconds : Nat) (errorCode : String)

section
variable (s : Store)

-- An UPDATE of the row: nothing where its WHERE does not hold.
def Store.update (taken : Bool) (row : Upload) : Option Store := if taken then some { s with row } else none

def Upload.clearProof (row : Upload) : Upload :=
  { row with
    verifiedSha256 := none,verifiedObjectEtag := none,verifiedObjectBytes := none,verifiedObjectVersion := none,verifiedAt := none
    verificationReceiptToken := none }

def Store.quarantined : Bool := decide (s.row.status = .quarantined)
def Store.pickupActive : Bool := decide (s.row.pickupState = .scanning) && s.row.pickup.unexpired s.now

-- WHERE verification_state='scanning' AND verification_claim_token=? with a lease that runs.
def Store.verifying (token : String) : Bool :=
  s.quarantined && decide (s.row.verificationState = .scanning) && s.row.verification.heldBy token && s.row.verification.unexpired s.now
def Store.pickingUp (token : String) : Bool :=
  s.quarantined && decide (s.row.pickupState = .scanning) && s.row.pickup.heldBy token && s.row.pickup.unexpired s.now

def claimVerification (token : String) : Option Store :=
  let due := s.quarantined && match s.row.verificationState with
    | .awaitingVerification => true
    | .verified => !s.pickupActive
    | .retry => s.row.verification.due s.now
    | .scanning => s.row.verification.lapsed s.now
  s.update due { s.row.clearProof with verificationState := .scanning,verification := s.row.verification.claimed s.now token }

-- The object was missing: neither the status nor the lease is asked for.
def releaseVerification (token : String) : Option Store :=
  s.update (decide (s.row.verificationState = .scanning) && s.row.verification.heldBy token)
    { s.row with verificationState := .retry,verification := s.row.verification.released s.now 60 "quarantine_object_missing" }

def heartbeatVerification (token : String) : Option Store :=
  s.update (s.verifying token) { s.row with verification := s.row.verification.extended s.now }

def retryVerification (token : String) (seconds : Nat) (code : String) : Option Store :=
  s.update (s.verifying token) { s.row.clearProof with verificationState := .retry,verification := s.row.verification.retried s.now seconds code }

def invalidateVerification (seconds : Nat) (code : String) (identity : ProofIdentity) : Option Store :=
  s.update (s.quarantined && decide (s.row.verificationState = .verified) && decide (s.row.verifiedObjectEtag = some (toLowerCase identity.objectEtag)) &&
      decide (s.row.verifiedObjectBytes = some identity.objectBytes) &&
      identity.objectVersion.any (fun version => s.row.verifiedObjectVersion = some version) && !s.pickupActive)
    { s.row.clearProof with verificationState := .retry,verification := s.row.verification.released s.now seconds (toLowerCase code) }

def proveVerification (token sha256 : String) (object : R2Object) : Option Store :=
  s.update (s.verifying token) { s.row with
    verificationState := .verified,verifiedSha256 := some (toLowerCase sha256),verifiedObjectEtag := some (toLowerCase object.etag)
    verifiedObjectBytes := some object.size,verifiedObjectVersion := some object.version,verifiedAt := some s.now
    verification := { s.row.verification with nextAttemptAt := none,lastErrorCode := none,claimToken := none,leaseExpiresAt := none }
    verificationReceiptToken := some token }

def claimPickup (token : String) : Option Store :=
  let due := s.quarantined && match s.row.pickupState with
    | .awaitingPickup => true
    | .retry => s.row.pickup.due s.now
    | .scanning => s.row.pickup.lapsed s.now
    | .accepted => false
  s.update due { s.row with pickupState := .scanning,pickup := s.row.pickup.claimed s.now token }

def releasePickup (token : String) : Option Store :=
  s.update (s.quarantined && decide (s.row.pickupState = .scanning) && s.row.pickup.heldBy token)
    { s.row with pickupState := .retry,pickup := s.row.pickup.released s.now 60 "quarantine_object_missing" }

def heartbeatPickup (token : String) : Option Store :=
  s.update (s.pickingUp token) { s.row with pickup := s.row.pickup.extended s.now }

def retryPickup (token : String) (seconds : Nat) (code : String) : Option Store :=
  s.update (s.pickingUp token) { s.row with pickupState := .retry,pickup := s.row.pickup.retried s.now seconds code }

-- No live lease is required: the stored token fences another claimant.
def acceptUpload (token sha256 : String) : Option Store :=
  s.update (s.quarantined && decide (s.row.pickupState = .scanning) && s.row.pickup.heldBy token) { s.row with
    status := .accepted,pickupState := .accepted,verifiedSha256 := some (toLowerCase sha256)
    pickup := { s.row.pickup with lastAttemptAt := some (s.row.pickup.lastAttemptAt.getD s.now),nextAttemptAt := none,lastErrorCode := none,claimToken := none,leaseExpiresAt := none } }
end

inductive Request where
  | verification (input : VerificationStatus)
  | pickup (input : PickupStatus)
  | accepted (sha256 claimToken : String)
  | serve (row : Upload) (range ifRange : Option String)

inductive Answer where
  | scanning (claimToken : String) (leaseExpiresAt : Option Nat) (replayed : Bool)
  | retry
  | verified (verifiedAt : Option Nat) (replayed : Bool)
  | accepted (idempotent : Bool)
  | served (object : R2Object) (range : Option (Nat × Nat))
  | unsatisfiable (size : Nat)
  | refused (status : Nat) (message : String)

abbrev Code := Program Store Answer

section

def unanswered : Code := .done (.refused 500 "")
def refused (message : String) : Code := .done (.refused 409 message)
def select (next : Store → Code) : Code := .read unanswered next

def update (statement : Store → Option Store) (next : Bool → Code) : Code :=
  .call (fun s => (statement s).getD s) (fun s => next (statement s).isSome) unanswered

-- A HEAD, a GET or a reading of the row, which the sights keep.
def Store.seen (name : Nat) (s : Store) : Store := { s with sights := s.sights++[⟨name,s.object,s.row⟩] }
def look (name : Nat) (next : Store → Code) : Code := .call (Store.seen name) next unanswered
end

def identityMatches (object : R2Object) (identity : ProofIdentity) : Bool :=
  decide (object.size = identity.objectBytes) && decide (toLowerCase object.etag = toLowerCase identity.objectEtag) &&
    identity.objectVersion.all fun version => version = "" || object.version = version

def verifiedObjectAvailable (row : Upload) (object : R2Object) : Bool :=
  decide (row.status = .quarantined) && decide (row.verificationState = .verified) && decide (row.verifiedObjectBytes = some object.size) &&
    decide (row.verifiedObjectEtag.map toLowerCase = some (toLowerCase object.etag)) && decide (row.verifiedObjectVersion = some object.version)

section
variable (name : Nat)

def missing : String := "Quarantined object is not available"

def applyScanning (claimToken : String) : Code :=
  update (claimVerification · claimToken) fun changed => select fun s =>
    if !changed then
      if s.verifying claimToken then .done (.scanning claimToken s.row.verification.leaseExpiresAt true)
      else refused "Upload is already claimed or not due for verification"
    else look name fun s =>
      if s.object.isNone then update (releaseVerification · claimToken) fun _ => refused missing else
      select fun s =>
        if s.verifying claimToken then .done (.scanning claimToken s.row.verification.leaseExpiresAt false) else refused "Verification lease was lost"

def applyHeartbeat (claimToken : String) : Code :=
  update (heartbeatVerification · claimToken) fun changed => select fun s =>
    if changed && s.verifying claimToken then .done (.scanning claimToken s.row.verification.leaseExpiresAt false)
    else refused "Verification lease is no longer active"

-- The same receipt was written before: its proof may still be that of the object.
def proofRepeated (row : Upload) (claimToken sha256 : String) (identity : ProofIdentity) : Bool :=
  decide (row.status = .quarantined) && decide (row.verificationState = .verified) && decide (row.verificationReceiptToken = some claimToken) &&
    decide (row.verifiedSha256 = some (toLowerCase sha256)) && decide (row.verifiedObjectEtag.map toLowerCase = some (toLowerCase identity.objectEtag)) &&
    decide (row.verifiedObjectBytes = some identity.objectBytes) &&
    identity.objectVersion.all fun version => version = "" || row.verifiedObjectVersion = some version

def proveUpload (claimToken sha256 : String) (identity : ProofIdentity) : Code := look name fun s => match s.object with
  | none => refused "Quarantined object identity changed"
  | some object =>
    if !identityMatches object identity then refused "Quarantined object identity changed" else
    update (proveVerification · claimToken sha256 object) fun changed =>
      if !changed then refused "Verification lease is no longer active" else
      select fun s => .done (.verified (if s.row.verificationState = .verified then s.row.verifiedAt else none) false)

def applyVerified (claimToken sha256 : String) (identity : ProofIdentity) : Code :=
  let prove : Code := proveUpload name claimToken sha256 identity
  select fun prior =>
    if proofRepeated prior.row claimToken sha256 identity then
      look name fun s =>
        if s.object.any fun object => decide (prior.row.verifiedObjectBytes = some object.size) &&
            decide (prior.row.verifiedObjectEtag.map toLowerCase = some (toLowerCase object.etag)) && decide (prior.row.verifiedObjectVersion = some object.version) then
          .done (.verified prior.row.verifiedAt true)
        else prove
    else prove

def applyVerificationStatus (input : VerificationStatus) : Code :=
  select fun s =>
    if !s.quarantined then .done (.refused 404 "Quarantined upload not found") else
    match input with
    | .scanning claimToken => applyScanning name claimToken
    | .heartbeat claimToken => applyHeartbeat claimToken
    | .retry claimToken seconds code => update (retryVerification · claimToken seconds code) fun changed =>
      if changed then .done .retry else refused "Verification lease is no longer active"
    | .invalidate seconds code identity => update (invalidateVerification · seconds code identity) fun changed =>
      if changed then .done .retry else refused "Verified proof is no longer current or pickup is active"
    | .verified claimToken identity sha256 => applyVerified name claimToken sha256 identity
end

section
variable (name : Nat)

def pickupScanning (claimToken : String) : Code :=
  update (claimPickup · claimToken) fun changed => select fun s =>
    if !changed then
      if s.pickingUp claimToken then .done (.scanning claimToken s.row.pickup.leaseExpiresAt true)
      else refused "Upload is already claimed or not due for pickup"
    else look name fun s =>
      if s.object.isNone then update (releasePickup · claimToken) fun _ => refused missing else
      select fun s =>
        if s.pickingUp claimToken then .done (.scanning claimToken s.row.pickup.leaseExpiresAt false) else refused "Pickup lease was lost"

def pickupHeartbeat (claimToken : String) : Code :=
  update (heartbeatPickup · claimToken) fun changed =>
    if !changed then refused "Pickup lease is no longer active" else
    select fun s =>
      if s.pickingUp claimToken then .done (.scanning claimToken s.row.pickup.leaseExpiresAt false) else refused "Pickup lease is no longer active"

def pickupStatus (input : PickupStatus) : Code :=
  select fun s =>
    if !s.quarantined then .done (.refused 404 "Quarantined upload not found") else
    match input with
    | .scanning claimToken => pickupScanning name claimToken
    | .heartbeat claimToken => pickupHeartbeat claimToken
    | .retry claimToken seconds code => update (retryPickup · claimToken seconds code) fun changed =>
      if changed then .done .retry else refused "Pickup lease is no longer active"

def acceptedRoute (sha256 claimToken : String) : Code :=
  select fun s => match s.row.status with
    | .accepted => .done (.accepted true)
    | .quarantined => look name fun s =>
      if s.object.isSome then refused "Remove the quarantined object only after verified local promotion" else
      update (acceptUpload · claimToken sha256) fun changed =>
        if !changed then refused "Pickup lease is no longer active" else
        select fun _ => select fun _ => .done (.accepted false)
end

inductive RequestedRange where
  | whole | part (offset length : Nat) | invalid

def maxSafeInteger : Nat := 9007199254740991
def digits (text : List Char) : Option Nat := if text.all Char.isDigit then some (text.foldl (fun n c => 10 * n + (c.toNat - 48)) 0) else none

def parseRange (value : Option String) (size : Nat) : RequestedRange :=
  match value with
  | none => .whole
  | some value => match value.toList with
    | [] => .whole
    | 'b' :: 'y' :: 't' :: 'e' :: 's' :: '=' :: bounds =>
      let first := bounds.takeWhile (· ≠ '-')
      match bounds.dropWhile (· ≠ '-') with
      | [] => .invalid
      | _ :: last => match digits first, digits last with
        | some start, some end_ =>
          if first = [] && last = [] then .invalid
          else if first = [] then
            if end_ ≤ maxSafeInteger && 0 < end_ then .part (size - end_) (min size end_) else .invalid
          else
            let end_ := if last = [] then size - 1 else end_
            if maxSafeInteger < start || maxSafeInteger < end_ || end_ < start || size ≤ start then .invalid
            else .part start (min end_ (size - 1) - start + 1)
        | _, _ => .invalid
    | _ => .invalid

section
variable (name : Nat)

def unavailable : Code := .done (.refused 404 "Verified upload is unavailable")
def replaced : Code := refused "Verified upload changed while it was being opened"

-- The row is read again after the HEAD, and the GET asks for the etag of the HEAD.
def serveVerifiedIncomingObject (row : Upload) (range ifRange : Option String) : Code :=
  look name fun s => match s.object with
    | none => unavailable
    | some head =>
      if !verifiedObjectAvailable row head then unavailable else
      match parseRange range head.size with
      | .invalid => .done (.unsatisfiable head.size)
      | requested =>
        let stable := "\""++row.verifiedObjectEtag.getD "null"++"\""
        let range := match requested with
          | .part offset length => if ifRange.all fun value => value = "" || value = stable then some (offset,length) else none
          | _ => none
        look name fun current =>
          if !verifiedObjectAvailable current.row head then unavailable else
          look name fun s => match s.object with
            | none => replaced
            | some object =>
              if object.etag ≠ head.etag || toLowerCase object.etag ≠ toLowerCase head.etag || object.version ≠ head.version || object.size ≠ head.size then replaced
              else .done (.served object range)
end

def code (name : Nat) : Request → Code
  | .verification input => applyVerificationStatus name input
  | .pickup input => pickupStatus name input
  | .accepted sha256 claimToken => acceptedRoute name sha256 claimToken
  | .serve row range ifRange => serveVerifiedIncomingObject name row range ifRange
end LedgeTopOps.UploadVerification
