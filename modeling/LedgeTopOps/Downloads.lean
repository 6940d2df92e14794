import LedgeTopOps.AtomicPrograms

namespace LedgeTopOps.Downloads
open AtomicPrograms Function

abbrev Bytes := List UInt8
abbrev Name := List Char

structure DownloadSpec where
  (opaqueIdentity contentUri fileName : Name)
  length : Int
  (eTag sha256 : Name)

-- `origins` is what the constructor made of the allowed ones.
structure Downloader where
  origins : List Name
  maximumBytes : Int
  accessSession : Bool

structure Description where
  (identity fileName : Name)
  length : Int
  (eTag sha256 : Name)

-- What the runtime does: URIs, entity tags, Unicode categories and hashes.
structure Platform where
  origin : Name → Option Name
  canonicalETag : Name → Bool
  (whiteSpace invisible : Char → Bool)
  hashText : Name → Name
  hashDescription : Description → Name
  hashData : Bytes → Bytes

structure State where
  version : Nat
  descriptor : Name
  length : Int
  (eTag sha256 : Name)
  deriving DecidableEq

inductive Entry where
  | file (content : Bytes)
  | directory

structure Requested where
  descriptor : Name
  offset : Nat
  held : Option Bytes

-- The output root, and the owned directory in it with a partial and a state file for each descriptor; a broken state
-- file is none inside.
structure Files where
  finals : Name → Option Entry
  partials : Name → Option Bytes
  states : Name → Option (Option State)
  requests : List Requested

structure ContentRange where
  unit : Name
  (start stop total : Option Int)
  deriving DecidableEq

structure Response where
  statusCode : Nat
  eTag : Option (Name × Bool)
  contentLength : Option Int
  contentEncoding : List Name
  contentRange : Option ContentRange

inductive Raised where
  | cancelled
  | stalled
  | transport
  | io
  | other
  deriving DecidableEq

structure Exchange where
  response : Response
  body : Nat → Bytes
  written : Nat → Nat
  raised : Raised

inductive Rejection where
  | contentOrigin
  | metadata
  | entityTag
  | digest
  | fileName
  | destination
  | transferMetadata
  | otherVersion
  | unownedPartial
  | partialLength
  | fileVersion
  | responseVersion
  | responseRange
  | unexpectedRange
  | partialChanged
  | responseEnded
  | responseExceeds
  | lengthChanged
  | verification
  | stalled
  | transport
  | interrupted
  deriving DecidableEq

def Rejection.message : Rejection → String
  | .contentOrigin => "Content origin is not approved."
  | .metadata => "Download metadata is outside the supported bounds."
  | .entityTag => "A canonical strong ETag is required."
  | .digest => "A trusted SHA-256 is required."
  | .fileName => "Choose a plain safe file basename."
  | .destination => "The destination already exists; it will not be overwritten."
  | .transferMetadata => "Transfer metadata is invalid."
  | .otherVersion => "Transfer metadata does not match this version."
  | .unownedPartial => "Unowned partial data cannot be resumed."
  | .partialLength => "Partial data exceeds the trusted length."
  | .fileVersion => "The server did not return the requested file version and range."
  | .responseVersion => "The response version or length does not match trusted metadata."
  | .responseRange => "The response Content-Range does not match the requested range."
  | .unexpectedRange => "Unexpected Content-Range on a full response."
  | .partialChanged => "Partial data changed during the request."
  | .responseEnded => "The response ended before the trusted length."
  | .responseExceeds => "The response exceeds the trusted length."
  | .lengthChanged => "Partial length changed before verification."
  | .verification => "SHA-256 verification failed; corrupt partial data was discarded."
  | .stalled => "Download stalled; owned partial data can be retried."
  | .transport => "Download transport failed; authenticated content URLs are never logged."
  | .interrupted => "Download interrupted or destination unavailable; owned partial data can be retried."

inductive Outcome where
  | completed
  | rejected (rejection : Rejection)
  | loginRequired
  | accessDenied
  | resourceUnavailable
  | threw (raised : Raised)
  deriving DecidableEq

def stateDirectory : Name := ".ltds-downloads-v1".toList
def reservedStems : List Name := ["CON".toList,"PRN".toList,"AUX".toList,"NUL".toList,"CONIN$".toList,"CONOUT$".toList]
def utf16Length (name : Name) : Nat := (name.map fun char => if char.val ≤ 0xFFFF then 1 else 2).foldl (· + ·) 0

def numberedDevice (stem : Name) : Bool :=
  match stem with
  | [a,b,c,digit] => ["COM".toList,"LPT".toList].contains [a,b,c] && "123456789¹²³".toList.contains digit
  | _ => false

def safeFileName (platform : Platform) (name : Name) : Bool :=
  let stem := (name.takeWhile (· != '.')).map Char.toUpper
  !name.all platform.whiteSpace && decide (utf16Length name ≤ 150) && !([".".toList,"..".toList,stateDirectory].contains name)
    && name.getLast? != some '.' && name.getLast? != some ' ' && !(name.any fun char => "<>:\"/\\|?*".toList.contains char)
    && !name.any platform.invisible && !reservedStems.contains stem && !numberedDevice stem

def hexDigit (char : Char) : Option UInt8 :=
  if '0' ≤ char ∧ char ≤ '9' then some (char.toNat - 48).toUInt8
  else if 'a' ≤ char ∧ char ≤ 'f' then some (char.toNat - 87).toUInt8
  else if 'A' ≤ char ∧ char ≤ 'F' then some (char.toNat - 55).toUInt8
  else none

def fromHexString : Name → Bytes
  | high :: low :: rest => ((hexDigit high).getD 0 * 16 + (hexDigit low).getD 0) :: fromHexString rest
  | _ => []

section
variable (downloader : Downloader) (platform : Platform) (spec : DownloadSpec) (exchange : Exchange)

def validate : Option Rejection :=
  if !((platform.origin spec.contentUri).any downloader.origins.contains) then some .contentOrigin
  else if spec.opaqueIdentity.all platform.whiteSpace || decide (4096 < utf16Length spec.opaqueIdentity)
      || decide (spec.length < 0) || decide (downloader.maximumBytes < spec.length) then some .metadata
  else if !platform.canonicalETag spec.eTag || decide (512 < utf16Length spec.eTag) then some .entityTag
  else if !(decide (spec.sha256.length = 64) && spec.sha256.all fun char => (hexDigit char).isSome) then some .digest
  else if !safeFileName platform spec.fileName then some .fileName
  else none

def lowered : Name := spec.sha256.map Char.toLower

def descriptor : Name :=
  platform.hashDescription ⟨platform.hashText spec.opaqueIdentity,spec.fileName,spec.length,spec.eTag,lowered spec⟩

def expected : State := ⟨1,descriptor platform spec,spec.length,spec.eTag,lowered spec⟩
def trusted : Nat := spec.length.toNat

def writeAt (position : Nat) (bytes content : Bytes) : Bytes :=
  content.take position++bytes++content.drop (position+bytes.length)

def setPartial (content : Option Bytes) (s : Files) : Files :=
  { s with partials := update s.partials (descriptor platform spec) content }

def setState (state : Option (Option State)) (s : Files) : Files :=
  { s with states := update s.states (descriptor platform spec) state }

def held (s : Files) : Option Bytes := s.partials (descriptor platform spec)

def writePartial (position : Nat) (bytes : Bytes) (s : Files) : Files :=
  setPartial platform spec ((held platform spec s).map (writeAt position bytes)) s

def promote (s : Files) : Files :=
  if (s.finals spec.fileName).isSome then s
  else { setPartial platform spec none s with
    finals := update s.finals spec.fileName ((held platform spec s).map Entry.file) }

-- The exceptions that are not TransferExceptions, after the handlers of the transfer.
def caught : Outcome :=
  match exchange.raised with
  | .stalled => .rejected .stalled
  | .transport => .rejected .transport
  | .io => .rejected .interrupted
  | raised => .threw raised

def fails : Program Files Outcome := .done (caught exchange)
def rejects (rejection : Rejection) : Program Files Outcome := .done (.rejected rejection)

def dispose (turn position : Nat) (pending : Bytes) (outcome : Outcome) : Program Files Outcome :=
  .call (writePartial platform spec position (pending.take (exchange.written turn))) (fun _ => .done outcome) (.done outcome)

def verify : Program Files Outcome :=
  .read (fails exchange) fun s => match held platform spec s with
    | none => rejects .interrupted
    | some opened =>
      if opened.length ≠ trusted spec then rejects .lengthChanged
      else .read (fails exchange) fun later =>
        if platform.hashData ((held platform spec later).getD []) ≠ fromHexString spec.sha256 then
          .call (setPartial platform spec none) (fun _ => rejects .verification) (fails exchange)
        else .read (fails exchange) fun _ => .call (promote platform spec)
          (fun before => if (before.finals spec.fileName).isSome then rejects .interrupted
            else .call (setState platform spec none) (fun _ => .done .completed) (.done .completed))
          (fails exchange)

def probe (offset turn flushed : Nat) (received : Bytes) : Program Files Outcome :=
  let pending := received.drop flushed
  let position := offset+flushed
  .read (dispose platform spec exchange turn position pending (caught exchange)) fun _ =>
    if (exchange.body turn).take 1 ≠ [] then
      .call (fun s => setPartial platform spec
          ((held platform spec (writePartial platform spec position pending s)).map (List.take offset)) s)
        (fun _ => .read (fails exchange) fun _ => rejects .responseExceeds)
        (dispose platform spec exchange turn position pending (caught exchange))
    else .call (writePartial platform spec position pending)
      (fun _ => .read (fails exchange) fun _ => verify platform spec exchange)
      (dispose platform spec exchange turn position pending (caught exchange))

def receive (offset remaining : Nat) : Nat → Nat → Nat → Bytes → Program Files Outcome
  | 0, turn, flushed, received => probe platform spec exchange offset turn flushed received
  | fuel+1, turn, flushed, received =>
    if remaining ≤ received.length then probe platform spec exchange offset turn flushed received
    else .read (dispose platform spec exchange turn (offset+flushed) (received.drop flushed) (caught exchange)) fun _ =>
      let count := (exchange.body turn).take (min 65536 (remaining-received.length))
      if count = [] then
        dispose platform spec exchange turn (offset+flushed) (received.drop flushed) (.rejected .responseEnded)
      else
        let pending := (received++count).drop flushed
        let amount := min (exchange.written turn) pending.length
        .call (writePartial platform spec (offset+flushed) (pending.take amount))
          (fun _ => receive offset remaining fuel (turn+1) (flushed+amount) (received++count))
          (dispose platform spec exchange turn (offset+flushed) pending (caught exchange))

def responseRejection (offset : Nat) : Option Outcome :=
  let response := exchange.response
  if response.statusCode = 401 then some .loginRequired
  else if response.statusCode = 403 then some .accessDenied
  else if response.statusCode = 404 ∨ response.statusCode = 409 then some .resourceUnavailable
  else if (0 < offset ∧ response.statusCode ≠ 206) ∨ (offset = 0 ∧ response.statusCode ≠ 200 ∧ response.statusCode ≠ 206) then
    some (.rejected .fileVersion)
  else if response.eTag ≠ some (spec.eTag,false) ∨ response.contentLength ≠ some (spec.length-offset)
      ∨ response.contentEncoding ≠ [] then some (.rejected .responseVersion)
  else if response.statusCode = 206 then
    if response.contentRange = some ⟨"bytes".toList,some offset,some (spec.length-1),some spec.length⟩ then none
    else some (.rejected .responseRange)
  else if response.contentRange.isSome then some (.rejected .unexpectedRange)
  else none

def openPartial (offset : Nat) : Program Files Outcome :=
  .call (fun s => setPartial platform spec (some ((held platform spec s).getD [])) s)
    (fun s => if ((held platform spec s).getD []).length ≠ offset then rejects .partialChanged
      else .read (fails exchange) fun _ =>
        receive platform spec exchange offset (trusted spec-offset) (trusted spec-offset) 0 0 [])
    (fails exchange)

def send (offset : Nat) : Program Files Outcome :=
  .call (fun s => { s with requests := s.requests++[⟨descriptor platform spec,offset,held platform spec s⟩] })
    (fun _ => .read (fails exchange) fun _ => match responseRejection spec exchange offset with
      | some outcome => .done outcome
      | none => .read (fails exchange) fun _ => openPartial platform spec exchange offset)
    (fails exchange)

def fetch (offset : Nat) : Program Files Outcome :=
  .read (fails exchange) fun s =>
    if offset < trusted spec ∨ (held platform spec s).isNone then
      if downloader.accessSession then .read (fails exchange) fun _ => send platform spec exchange offset
      else send platform spec exchange offset
    else .read (fails exchange) fun _ => verify platform spec exchange

-- A full partial that was not promoted is discarded.
def transfer : Program Files Outcome :=
  .read (fails exchange) fun s =>
    let offset := ((held platform spec s).map List.length).getD 0
    if trusted spec < offset then rejects .partialLength
    else if (held platform spec s).isSome ∧ offset = trusted spec then
      .call (setPartial platform spec none) (fun _ => fetch downloader platform spec exchange 0) (fails exchange)
    else fetch downloader platform spec exchange offset

def downloadAsync : Program Files Outcome :=
  let throws : Program Files Outcome := .done (.threw exchange.raised)
  .read throws fun _ => match validate downloader platform spec with
    | some rejection => rejects rejection
    | none => .read throws fun root =>
      if (root.finals spec.fileName).isSome then rejects .destination
      else .read throws fun owned => match owned.states (descriptor platform spec) with
        | some none => rejects .transferMetadata
        | some (some state) =>
          if state ≠ expected platform spec then rejects .otherVersion else transfer downloader platform spec exchange
        | none =>
          if (held platform spec owned).isSome then rejects .unownedPartial
          else .call (setState platform spec (some none))
            (fun _ => .call (setState platform spec (some (some (expected platform spec))))
              (fun _ => .read throws fun _ => transfer downloader platform spec exchange) throws) throws
end

structure Attempt where
  downloader : Downloader
  spec : DownloadSpec
  exchange : Exchange

def code (platform : Platform) (attempt : Attempt) : Program Files Outcome :=
  downloadAsync attempt.downloader platform attempt.spec attempt.exchange
end LedgeTopOps.Downloads
