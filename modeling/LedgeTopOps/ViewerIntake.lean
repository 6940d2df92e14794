import LedgeTopOps.ViewerPayloads

namespace LedgeTopOps.ViewerIntake
open JsonText ViewerPayloads

-- The delivery of a stored event by the Viewer and its reading by Operations, up to the
-- first use of the database. Clocks are milliseconds.
structure Url where
  (protocol username password origin pathname search hash : Text)

structure Platform where
  sha256 : Text → Text
  hmac : Text → Text → Text
  -- atob of the signature and crypto.subtle.verify
  verify : Text → Text → Text → Bool
  parse : Text → Option Json
  isoString : Nat → Text
  datetime : Text → Bool
  dateParse : Text → Option Nat
  parseUrl : Text → Option Url

-- An event key that the Viewer starts with, and that it delivers with.
structure EventKey where
  (id secret : Text)
  long : 32 ≤ secret.length

structure ViewerConfig where
  key : EventKey
  opsBaseUrl : Text

structure OpsEnv where
  publicBaseUrl : Text
  (keyId secret previousKeyId previousSecret : Option Text)

def OpsEnv.secretOf (env : OpsEnv) (keyId : Text) : Option Text :=
  if some keyId = env.keyId then env.secret else
  if some keyId = env.previousKeyId then env.previousSecret else none

structure Request where
  (keyId timestamp nonce bodyHash signature idempotencyKey : Text)
  contentLength : Nat
  (method path body : Text)

def base64Unit (c : UInt16) : Bool := letter c || numeric c || unitIn "-_" c

-- crypto.randomBytes(24).toString('base64url')
structure Nonce where
  text : Text
  long : text.length = 32
  shape : ∀ c ∈ text, base64Unit c = true

def canonicalViewerEvent (method path timestamp nonce bodySha256 : Text) : Text :=
  List.intercalate [0x0A] [ascii "ltds-viewer-event-v1",method,path,timestamp,nonce,bodySha256]

def eventsPath : Text := ascii "/api/viewer/events"

def deliverOneEvent (platform : Platform) (config : ViewerConfig) (now : Nat) (nonce : Nonce) (row : Row) : Request :=
  let body := transmit row.payload
  let bodySha256 := platform.sha256 body
  let timestamp := decimal (now / 1000)
  { keyId := config.key.id
    timestamp := timestamp
    nonce := nonce.text
    bodyHash := bodySha256
    signature := platform.hmac config.key.secret (canonicalViewerEvent (ascii "POST") eventsPath timestamp nonce.text bodySha256)
    idempotencyKey := row.id
    contentLength := utf8Length body
    method := ascii "POST"
    path := eventsPath
    body := body }

structure Refusal where
  status : Nat
  message : String

abbrev Answer (α : Type) := Except Refusal α

def refuse (status : Nat) (message : String) : Answer α := .error ⟨status,message⟩
def maxEventBytes : Nat := 16 * 1024
def clockSkewSeconds : Nat := 300
def dayMilliseconds : Nat := 24 * 60 * 60 * 1000

def boundedBody (request : Request) : Answer Text :=
  if maxEventBytes < request.contentLength then refuse 413 "Viewer event is too large" else
  if maxEventBytes < utf8Length request.body then refuse 413 "Viewer event is too large" else .ok request.body

def repeated (least most : Nat) (allowed : UInt16 → Bool) (text : Text) : Bool :=
  decide (least ≤ text.length) && decide (text.length ≤ most) && text.all allowed

def nonceUnit (c : UInt16) : Bool := letter c || numeric c || unitIn "._:-" c
def apart (left right : Nat) : Nat := (left - right) + (right - left)

def verifyEventSignature (platform : Platform) (env : OpsEnv) (now : Nat) (request : Request) (body : Text) : Answer Unit :=
  let failed : Answer Unit := refuse 401 "Viewer event authentication failed"
  (env.secretOf request.keyId).elim failed fun secret =>
    if secret.length < 32 then failed else
    if !(repeated 10 10 numeric request.timestamp && repeated 16 128 nonceUnit request.nonce &&
        repeated 64 64 lowerHex request.bodyHash && repeated 43 88 base64Unit request.signature) then failed else
    if clockSkewSeconds < apart (now / 1000) (numeral request.timestamp) then failed else
    if platform.sha256 (transmit body) ≠ request.bodyHash then failed else
    if platform.verify secret (canonicalViewerEvent request.method request.path request.timestamp request.nonce request.bodyHash) request.signature
      then .ok () else failed

-- z.string().min(least).max(most), trimmed before where the schema says so.
def sized (least most : Nat) (text : Text) : Option Text := if least ≤ text.length ∧ text.length ≤ most then some text else none
def trimmed (most : Nat) (text : Text) : Option Text := sized 1 most (trim text)
def opaqueId (text : Text) : Option Text := if opaqueText text then sized 1 128 text else none
def keyUnit (c : UInt16) : Bool := letter c || numeric c || unitIn "._:-" c

def idempotencyKey (text : Text) : Option Text :=
  if text.head?.any (fun c => letter c || numeric c) && text.all keyUnit then sized 16 128 text else none

def subject (text : Text) : Option Text :=
  if (ascii "ops:").isPrefixOf text && opaqueText (text.drop 4) && decide (text.length ≤ 132) then some text else none

structure Failure where
  (code message : Text)

structure Event where
  (eventId type occurredAt projectId : Text)
  projectDisplayName : Option Text
  taskId : Text
  taskDisplayName : Option Text
  (attemptId requestedBySubject status : Text)
  error : Option Failure
  reviewUrl : Option Text

abbrev Members := List (String × Json)

def stringMember (members : Members) (name : String) (accept : Text → Option Text) : Option Text :=
  (members.lookup name).bind fun
    | .string text => accept text
    | _ => none

-- An absent member of the object is fine, any other has to be accepted.
def optionalMember (members : Members) (name : String) (accept : Json → Option α) : Option (Option α) :=
  (members.lookup name).elim (some none) fun value => (accept value).map some

def textual (accept : Text → Option Text) : Json → Option Text
  | .string text => accept text
  | _ => none

def onlyNames (names : List String) (members : Members) : Bool := members.all fun member => names.contains member.1

def failureSchema : Json → Option Failure
  | .object members =>
    if !onlyNames ["code","message"] members then none else
    (stringMember members "code" (trimmed 80)).bind fun code =>
      (stringMember members "message" (trimmed 500)).map fun message => ⟨code,message⟩
  | _ => none

def eventNames : List String :=
  ["schemaVersion","eventId","type","occurredAt","projectId","projectDisplayName","taskId","taskDisplayName","attemptId",
   "requestedBySubject","status","error","reviewUrl"]

def eventTypes : List Text := [ascii "processing.ready_for_review",ascii "processing.failed"]

def versionOne : Json → Option Unit
  | .number 1 => some ()
  | _ => none

-- A failure carries its summary, a readiness its review URL.
def completed (event : Event) : Bool :=
  !(event.type = ascii "processing.failed" && event.error.isNone) &&
    !(event.type = ascii "processing.ready_for_review" && !event.reviewUrl.any (· ≠ []))

def eventSchema (platform : Platform) : Json → Option Event
  | .object members => do
    guard (onlyNames eventNames members)
    let _ ← (members.lookup "schemaVersion").bind versionOne
    let eventId ← stringMember members "eventId" opaqueId
    let type ← stringMember members "type" fun text => if eventTypes.contains text then some text else none
    let occurredAt ← stringMember members "occurredAt" fun text => if platform.datetime text then some text else none
    let projectId ← stringMember members "projectId" opaqueId
    let projectDisplayName ← optionalMember members "projectDisplayName" (textual (trimmed 160))
    let taskId ← stringMember members "taskId" opaqueId
    let taskDisplayName ← optionalMember members "taskDisplayName" (textual (trimmed 160))
    let attemptId ← stringMember members "attemptId" opaqueId
    let requestedBySubject ← stringMember members "requestedBySubject" subject
    let status ← stringMember members "status" (trimmed 80)
    let error ← optionalMember members "error" failureSchema
    let reviewUrl ← optionalMember members "reviewUrl"
      (textual fun text => if (platform.parseUrl text).isSome then sized 0 2048 text else none)
    let event : Event := ⟨eventId,type,occurredAt,projectId,projectDisplayName,taskId,taskDisplayName,attemptId,requestedBySubject,status,error,reviewUrl⟩
    guard (completed event)
    return event
  | _ => none

def validateReviewUrl (platform : Platform) (env : OpsEnv) (value : Option Text) (attemptId : Text) : Answer (Option Text) :=
  let invalid : Answer (Option Text) := refuse 400 "Operations review URL is invalid"
  (value.filter (· ≠ [])).elim (.ok none) fun value =>
    (platform.parseUrl env.publicBaseUrl).elim invalid fun base =>
      (platform.parseUrl value).elim invalid fun url =>
        (encodeURIComponent attemptId).elim invalid fun encoded =>
          if base.protocol ≠ ascii "https:" ∨ base.username ≠ [] ∨ base.password ≠ [] ∨
              url.protocol ≠ ascii "https:" ∨ url.username ≠ [] ∨ url.password ≠ [] ∨ url.hash ≠ [] ∨
              url.origin ≠ base.origin ∨ url.pathname ≠ ascii "/operations/processing" ∨
              url.search ≠ ascii "?attemptId="++encoded then invalid
          else .ok (some (base.origin++ascii "/operations/processing?attemptId="++encoded))

def intake (platform : Platform) (env : OpsEnv) (now : Nat) (request : Request) : Answer (Event × Option Text) := do
  let rawBody ← boundedBody request
  verifyEventSignature platform env now request rawBody
  let decoded ← (platform.parse rawBody).elim (refuse 400 "Viewer event must be JSON") .ok
  let event ← (eventSchema platform decoded).elim (refuse 400 "Viewer event is invalid") .ok
  if idempotencyKey request.idempotencyKey ≠ some event.eventId then refuse 400 "Viewer event is invalid" else
  if !(platform.dateParse event.occurredAt).any (fun time => apart now time ≤ dayMilliseconds) then refuse 400 "Viewer event time is invalid" else
  (validateReviewUrl platform env event.reviewUrl event.attemptId).map fun reviewUrl => (event,reviewUrl)
end LedgeTopOps.ViewerIntake
