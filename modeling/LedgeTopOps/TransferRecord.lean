import LedgeTopOps.JsonTree
import LedgeTopOps.TextPatterns

namespace LedgeTopOps.TransferRecord
open List JsonTree TextPatterns Bool

inductive QueuedTransferState where
  | queued | running | paused | cancelled | completed | failed | versionChanged | loginRequired
  | accessDenied | resourceUnavailable
  deriving DecidableEq

def QueuedTransferState.name : QueuedTransferState → Text
  | .queued => "Queued".toList
  | .running => "Running".toList
  | .paused => "Paused".toList
  | .cancelled => "Cancelled".toList
  | .completed => "Completed".toList
  | .failed => "Failed".toList
  | .versionChanged => "VersionChanged".toList
  | .loginRequired => "LoginRequired".toList
  | .accessDenied => "AccessDenied".toList
  | .resourceUnavailable => "ResourceUnavailable".toList

def QueuedTransferState.isOver : QueuedTransferState → Bool
  | .completed | .cancelled | .versionChanged => true
  | _ => false

structure Guid where
  digits : List (Fin 16)
  size : digits.length = 32
  deriving DecidableEq

def Guid.empty : Guid := ⟨replicate 32 0,rfl⟩
def hexDigit (digit : Fin 16) : Char := Char.ofNat (if digit.val < 10 then 48+digit.val else 87+digit.val)

def hexValue (c : Char) : Option (Fin 16) :=
  let here := c.toNat
  if 48 ≤ here ∧ here ≤ 57 then some (Fin.ofNat 16 (here-48)) else
  if 97 ≤ here ∧ here ≤ 102 then some (Fin.ofNat 16 (here-87)) else
  if 65 ≤ here ∧ here ≤ 70 then some (Fin.ofNat 16 (here-55)) else none

-- ToString("D"): lower-case digits in groups of 8, 4, 4, 4 and 12.
def Guid.groups (guid : Guid) : List Text :=
  let hex := guid.digits.map hexDigit
  [hex.take 8,(hex.drop 8).take 4,(hex.drop 12).take 4,(hex.drop 16).take 4,hex.drop 20]

def Guid.text (guid : Guid) : Text := ['-'].intercalate guid.groups

def Guid.ofDigits (digits : List (Fin 16)) : Option Guid :=
  if size : digits.length = 32 then some ⟨digits,size⟩ else none

def Guid.parse (text : Text) : Option Guid :=
  let groups := text.splitOn '-'
  if groups.map List.length = [8,4,4,4,12] then (groups.flatten.mapM hexValue).bind Guid.ofDigits else none

@[simp] theorem hexValue_digit (digit : Fin 16) : hexValue (hexDigit digit) = some digit := by
  revert digit
  decide

theorem hexDigit_dash (digit : Fin 16) : hexDigit digit ≠ '-' := by
  revert digit
  decide

theorem hexValues_digits (digits : List (Fin 16)) : (digits.map hexDigit).mapM hexValue = some digits := by
  induction digits with
  | nil => rfl
  | cons _ _ ih => simp [mapM_cons,ih]

theorem Guid.groups_flatten (guid : Guid) : guid.groups.flatten = guid.digits.map hexDigit := by
  have joined (hex : Text) : hex.take 8++((hex.drop 8).take 4++((hex.drop 12).take 4++((hex.drop 16).take 4++hex.drop 20))) = hex := by
    have last : (hex.drop 16).take 4++hex.drop 20 = hex.drop 16 := by
      simpa using take_append_drop 4 (hex.drop 16)
    have third : (hex.drop 12).take 4++hex.drop 16 = hex.drop 12 := by
      simpa using take_append_drop 4 (hex.drop 12)
    have second : (hex.drop 8).take 4++hex.drop 12 = hex.drop 8 := by
      simpa using take_append_drop 4 (hex.drop 8)
    rw [last,third,second,take_append_drop]
  simpa [Guid.groups] using joined (guid.digits.map hexDigit)

theorem Guid.groups_lengths (guid : Guid) : guid.groups.map List.length = [8,4,4,4,12] := by
  simp [Guid.groups,guid.size]

theorem Guid.groups_plain (guid : Guid) : ∀ group ∈ guid.groups, '-' ∉ group := by
  intro group mem dash
  have inside : '-' ∈ guid.groups.flatten := mem_flatten.mpr ⟨group,mem,dash⟩
  rw [guid.groups_flatten] at inside
  obtain ⟨digit,_,same⟩ := mem_map.mp inside
  exact hexDigit_dash digit same

theorem Guid.parse_text (guid : Guid) : Guid.parse guid.text = some guid := by
  have split : guid.text.splitOn '-' = guid.groups :=
    splitOn_intercalate '-' guid.groups_plain (by simp [Guid.groups])
  unfold Guid.parse
  rw [split]
  simp only [guid.groups_lengths,guid.groups_flatten,hexValues_digits,Option.bind_some,if_true]
  simp [Guid.ofDigits,guid.size]

structure QueuedTransfer where
  jobId : Guid
  (resourceReference destination logicalFileId remoteVersion fileName : Text)
  length : Int
  (eTag sha256 : Text)
  recoveryRequired : Bool
  state : QueuedTransferState
  errorCode : Option Text
  deriving DecidableEq

structure Uri where
  isAbsoluteUri : Bool
  (scheme userInfo fragment absolutePath query authority : Text)
  deriving DecidableEq

structure DownloadSpec where
  opaqueIdentity : Text
  contentUri : Uri
  fileName : Text
  length : Int
  (eTag sha256 : Text)
  deriving DecidableEq

structure QueuedDownloadSession where
  principalId : Text
  expiresAt : Int

structure ResolvedQueuedDownload where
  (principalId logicalFileId remoteVersion : Text)
  spec : DownloadSpec
  deriving DecidableEq

-- What the queue tells apart among exceptions. Its own storage exception is raised by its commits only.
inductive Raised where
  | operationCanceled | loginRequired | accessDenied | resourceUnavailable | other
  deriving DecidableEq

structure EntityTag where
  tag : Text
  isWeak : Bool
  text : Text

-- The parts of the class library whose tables or path syntax are the
-- platform's: paths, header parsing, Unicode categories and case mapping.
structure Platform where
  isPathFullyQualified : Text → Bool
  (getFullPath trimEndingDirectorySeparator : Text → Text)
  combine : Text → Text → Text
  entityTag : Text → Option EntityTag
  controlOrFormat : Char → Bool
  toUpperInvariant : Text → Text

def isControl (c : Char) : Bool := decide (c.toNat < 32) || (decide (127 ≤ c.toNat) && decide (c.toNat < 160))

def isWhiteSpace (c : Char) : Bool :=
  (decide (9 ≤ c.toNat) && decide (c.toNat ≤ 13)) || (decide (8192 ≤ c.toNat) && decide (c.toNat ≤ 8202)) ||
    [32,133,160,5760,8232,8233,8239,8287,12288].contains c.toNat

def isNullOrWhiteSpace (text : Text) : Bool := text.all isWhiteSpace

def logicalFile (text : Text) : Bool :=
  led "oef1_".toList (repeated 64 64 lowerHex) text || led "ondf1_".toList (repeated 64 64 lowerHex) text

def principal (text : Text) : Bool := led "odqp1_".toList (repeated 64 64 lowerHex) text
def referenceLetter (c : Char) : Bool := alphanumeric c || c == '_' || c == '-'

def reference (text : Text) : Bool :=
  decide (units text ≤ 16384) && led "odqr1_".toList (fun rest => !rest.isEmpty && rest.all referenceLetter) text

def aliasPattern (text : Text) : Bool :=
  match text with
  | [] => false
  | first :: rest => lowerAlphanumeric first && repeated 0 63 (fun c => lowerAlphanumeric c || c == '_' || c == '-') rest

def reservedDevice (stem : Text) : Bool :=
  ["CON".toList,"PRN".toList,"AUX".toList,"NUL".toList,"CONIN$".toList,"CONOUT$".toList].contains stem ||
    positional ["CL".toList.contains,"OP".toList.contains,"MT".toList.contains,"123456789¹²³".toList.contains] stem &&
      ["COM".toList,"LPT".toList].contains (stem.take 3)

def safeFileName (platform : Platform) (name : Text) : Bool :=
  !(isNullOrWhiteSpace name || decide (150 < units name) ||
    [".".toList,"..".toList,".ltds-downloads-v1".toList].contains name ||
    name.getLast? == some '.' || name.getLast? == some ' ' || name.any "<>:\"/\\|?*".toList.contains) &&
  !name.any platform.controlOrFormat &&
  !reservedDevice (platform.toUpperInvariant (name.takeWhile fun c => c != '.'))

def validatePins (platform : Platform) (name : Text) (size : Int) (etag sha : Text) : Bool :=
  safeFileName platform name &&
  !(decide (size < 0) || decide (1099511627776 < size) || !repeated 64 64 lowerHex sha || decide (512 < units etag)) &&
  match platform.entityTag etag with
  | none => false
  | some parsed => !parsed.isWeak && parsed.tag != "*".toList && parsed.text == etag

def fixedContentOrigin (value : Uri) : Except Raised Text :=
  if !value.isAbsoluteUri || value.scheme != "https".toList || !value.userInfo.isEmpty || !value.fragment.isEmpty
  then .error .other else .ok value.authority

def fixedOrigin (value : Uri) : Except Raised Text :=
  match fixedContentOrigin value with
  | .error raised => .error raised
  | .ok result => if value.absolutePath != "/".toList || !value.query.isEmpty then .error .other else .ok result

structure Owner where
  (sourceAlias origin principal : Text)
  deriving DecidableEq

def validateResolved (platform : Platform) (owner : Owner) (value : ResolvedQueuedDownload) : Except Raised Unit :=
  if value.principalId ≠ owner.principal then .error .accessDenied else
  if !logicalFile value.logicalFileId || value.remoteVersion.isEmpty || decide (256 < units value.remoteVersion) ||
    value.remoteVersion.any isControl || value.spec.opaqueIdentity != value.logicalFileId++ ':' :: value.remoteVersion
  then .error .other else
  match fixedContentOrigin value.spec.contentUri with
  | .error raised => .error raised
  | .ok origin =>
    if origin ≠ owner.origin then .error .other else
    if validatePins platform value.spec.fileName value.spec.length value.spec.eTag value.spec.sha256
    then .ok () else .error .other

def validSession (value : Option QueuedDownloadSession) (now : Int) : Except Raised QueuedDownloadSession :=
  match value with
  | none => .error .loginRequired
  | some session =>
    if !principal session.principalId || decide (session.expiresAt ≤ now + 50000000) then .error .loginRequired
    else .ok session

structure Reading where
  sourceAlias : Text
  origin : Uri

def checkSource (owner : Owner) (reading : Reading) : Except Raised Unit :=
  if reading.sourceAlias ≠ owner.sourceAlias then .error .accessDenied else
  match fixedOrigin reading.origin with
  | .error raised => .error raised
  | .ok origin => if origin ≠ owner.origin then .error .accessDenied else .ok ()

structure Directory where
  (there plain : Bool)

def unc (value : Text) : Bool := "\\\\".toList.isPrefixOf value

def canonicalPath (platform : Platform) (value : Text) : Text :=
  platform.trimEndingDirectorySeparator (platform.getFullPath value)

def localDirectory (platform : Platform) (value : Text) (seen : Directory) : Except Raised Text :=
  if !platform.isPathFullyQualified value || unc value || !seen.there then .error .other else
  if seen.plain then .ok (canonicalPath platform value) else .error .other

def canonicalStoredDestination (platform : Platform) (value : Text) : Bool :=
  platform.isPathFullyQualified value && !unc value && canonicalPath platform value == value

def errorCodes : List Text :=
  ["interrupted".toList,"resource-identity-changed".toList,"version-changed".toList,"login-required".toList,
    "access-denied".toList,"resource-unavailable".toList,"transfer-failed".toList,"state-save-failed".toList,
    "existing-content-mismatch".toList]

structure Acceptable (platform : Platform) (owner : Owner) (value : ResolvedQueuedDownload) : Prop where
  logical : logicalFile value.logicalFileId = true
  version : value.remoteVersion ≠ [] ∧ units value.remoteVersion ≤ 256 ∧ value.remoteVersion.any isControl = false
  pins : validatePins platform value.spec.fileName value.spec.length value.spec.eTag value.spec.sha256 = true

theorem validateResolved_ok (accepted : validateResolved platform owner value = .ok ()) : Acceptable platform owner value := by
  unfold validateResolved at accepted
  split at accepted
  · cases accepted
  split at accepted
  · cases accepted
  rename_i fields
  simp only [not_eq_true,or_eq_false_iff,not_eq_false',decide_eq_false_iff_not] at fields
  obtain ⟨⟨⟨⟨logical,nonempty⟩,bounded⟩,printable⟩,_⟩ := fields
  split at accepted
  · cases accepted
  split at accepted
  · cases accepted
  split at accepted
  · rename_i pins
    refine ⟨logical,⟨?_,Nat.not_lt.mp bounded,printable⟩,pins⟩
    simpa using nonempty
  cases accepted
end LedgeTopOps.TransferRecord
