import LedgeTopOps.TextPatterns

namespace LedgeTopOps.ReadGateway
open TextPatterns

structure Denied where
  code : String
  status : Nat
deriving DecidableEq

def invalidRequest : Denied := ⟨"invalid-request",400⟩
def unauthorized : Denied := ⟨"unauthorized",401⟩
def expiredRequest : Denied := ⟨"expired-request",401⟩
def invalidRange : Denied := ⟨"invalid-range",416⟩
def replayStoreFull : Denied := ⟨"replay-store-full",503⟩
def replayedRequest : Denied := ⟨"replayed-request",409⟩
def replayStoreUnavailable : Denied := ⟨"replay-store-unavailable",503⟩

-- A parsed document with its object pairs as they were read. No check reads the
-- value of a float, or of a string with a lone surrogate, that it lets pass.
inductive Json where
  | null
  | boolean (value : Bool)
  | integer (value : Int)
  | float
  | string (value : String)
  | surrogates
  | array (items : List Json)
  | object (pairs : List (String × Json))

-- What the gateway takes from hashlib, hmac, json and the Unicode tables.
-- loads is none where decoding or parsing raises, parse_constant included.
structure Platform where
  sha256 : List UInt8 → String
  hmac : List UInt8 → List UInt8 → String
  loads : List UInt8 → Option Json
  isSpace : Char → Bool
  category : Char → String

structure Gateway where
  gatewayId : String
  keys : List (String × List UInt8)
  capacity : Nat
  positive : 1 ≤ capacity

abbrev Headers := List (String × String)

def safe : Int := 9007199254740991
def encode (text : String) : List UInt8 := text.toUTF8.toList
def hex (text : String) : Bool := repeated 64 64 lowerHex text.toList

def fields : List String :=
  ["schemaVersion","gatewayId","rootId","rootGeneration","rootFingerprint","staffId",
    "accessSubject","admissionVersion","profileVersion","grantId","grantGeneration",
    "operation","path","expectedSha256","range","cursor","snapshotId","expiresAt","deadlineAt"]

def require (condition : Bool) (denied : Denied) : Except Denied Unit :=
  if condition then .ok () else .error denied

def integer (value : Json) (minimum : Int) : Except Denied Int := match value with
  | .integer value => if minimum ≤ value ∧ value ≤ safe then .ok value else .error invalidRequest
  | _ => .error invalidRequest

-- The version digit is 1 to 8. A text of this shape is what uuid.UUID prints back.
def canonicalUuid (value : Json) : Except Denied String := match value with
  | .string value =>
    if uuid (fun c => decide ('1' ≤ c) && decide (c ≤ '8')) (among ['8','9','a','b']) value.toList then .ok value
    else .error invalidRequest
  | _ => .error invalidRequest

def strip (platform : Platform) (text : List Char) : List Char :=
  ((text.dropWhile platform.isSpace).reverse.dropWhile platform.isSpace).reverse

def text (platform : Platform) (value : Json) (opaqueText : Bool) : Except Denied String := match value with
  | .string value =>
    if strip platform value.toList = [] || (!opaqueText && strip platform value.toList ≠ value.toList) || 191 < value.length
      || value.toList.any (fun c => (platform.category c).toList.head? == some 'C') || 764 < value.utf8ByteSize then
      .error invalidRequest
    else .ok value
  | _ => .error invalidRequest

def splitPath : List Char → List (List Char)
  | [] => [[]]
  | c :: rest => if c = '/' then [] :: splitPath rest else match splitPath rest with
    | [] => [[c]]
    | part :: parts => (c :: part) :: parts

def pathParts (platform : Platform) (value : Json) (allowEmpty : Bool) : Except Denied (List (List Char)) := match value with
  | .string value =>
    if value = "" ∧ allowEmpty = true then .ok [] else
    if value.toList.any (among ['\\','%',':']) || value.toList.any (fun c => ["Cc","Cf","Cs"].contains (platform.category c)) then
      .error invalidRequest
    else
    let parts := splitPath value.toList
    if 4096 < value.utf8ByteSize || 64 < parts.length
      || parts.any (fun part => [[],['.'],['.','.']].contains part || decide (255 < (String.ofList part).utf8ByteSize)) then
      .error invalidRequest
    else .ok parts
  | _ => .error invalidRequest

-- The object_pairs_hook meets every object of the document.
mutual
def uniquePairs : Json → Bool
  | .array items => uniqueItems items
  | .object pairs => uniqueMembers [] pairs
  | _ => true
def uniqueItems : List Json → Bool
  | [] => true
  | item :: rest => uniquePairs item && uniqueItems rest
def uniqueMembers (seen : List String) : List (String × Json) → Bool
  | [] => true
  | (key,value) :: rest => !seen.contains key && uniquePairs value && uniqueMembers (key :: seen) rest
end

def uniqueJson (platform : Platform) (body : List UInt8) : Except Denied Json :=
  if 16384 < body.length then .error invalidRequest else
  match platform.loads body with
  | none => .error invalidRequest
  | some document => if uniquePairs document then .ok document else .error invalidRequest

def keysAre (pairs : List (String × Json)) (names : List String) : Bool :=
  pairs.all (fun pair => names.contains pair.1) && names.all fun name => pairs.any fun pair => pair.1 == name

-- Only read after keysAre: every field is there.
def member (pairs : List (String × Json)) (name : String) : Json := (pairs.lookup name).getD .null

def header (headers : Headers) (name : String) (pattern : List Char → Bool) : Except Denied String :=
  match headers.lookup name with
  | none => .error unauthorized
  | some value => if pattern value.toList then .ok value else .error unauthorized

def keyIdPattern (value : List Char) : Bool := repeated 1 64 (fun c => alphanumeric c || among ['_','-'] c) value
def timePattern : List Char → Bool
  | [] => false
  | first :: rest => decide ('1' ≤ first) && decide (first ≤ '9') && repeated 0 15 decimal rest
def noncePattern (value : List Char) : Bool := repeated 32 32 lowerHex value
def staffPattern : List Char → Bool
  | [] => false
  | first :: rest => alphanumeric first && repeated 0 190 (fun c => alphanumeric c || among [':','.','_','-'] c) rest

def decimalValue (digits : List Char) : Int :=
  digits.foldl (fun total c => total * 10 + (c.toNat - '0'.toNat : Nat)) 0

def message (platform : Platform) (gatewayId keyId timestamp nonce : String) (body : List UInt8) : String :=
  "\n".intercalate ["ops-employee-read-v1",gatewayId,keyId,timestamp,nonce,"POST","/v1/read",platform.sha256 body]

def nonNull : Json → Bool
  | .null => false
  | _ => true

def rangeTest (operation : String) (value : Json) : Except Denied Unit := match value with
  | .null => .ok ()
  | .object pairs => do
    require (operation == "content" && keysAre pairs ["start","end"]) invalidRequest
    let first ← integer (member pairs "start") 0
    let last ← integer (member pairs "end") 0
    require (decide (first ≤ last)) invalidRange
  | _ => .error invalidRequest

def cursorTest (operation : String) (value : Json) : Except Denied Unit := match value with
  | .null => .ok ()
  | .string value => require (operation == "list" && decide (1 ≤ value.length) && decide (value.length ≤ 8192)
      && value.toList.all fun c => decide (33 ≤ c.toNat) && decide (c.toNat ≤ 126)) invalidRequest
  | _ => .error invalidRequest

def operationOf : Json → Except Denied String
  | .string value => if ["list","manifest","content"].contains value then .ok value else .error invalidRequest
  | _ => .error invalidRequest

def checkRequest (platform : Platform) (gateway : Gateway) (timestamp : Int) (now : Rat) (request : List (String × Json)) :
    Except Denied Int := do
  match member request "schemaVersion" with
    | .integer version => require (version == 1) invalidRequest
    | _ => .error invalidRequest
  let gatewayId ← canonicalUuid (member request "gatewayId")
  let _ ← canonicalUuid (member request "rootId")
  let _ ← canonicalUuid (member request "grantId")
  require (gatewayId == gateway.gatewayId) unauthorized
  let _ ← integer (member request "rootGeneration") 1
  let _ ← integer (member request "admissionVersion") 1
  let _ ← integer (member request "profileVersion") 1
  let _ ← integer (member request "grantGeneration") 1
  let staffId ← text platform (member request "staffId") false
  require (staffPattern staffId.toList) invalidRequest
  let _ ← text platform (member request "accessSubject") true
  match member request "rootFingerprint" with
    | .string value => require (hex value) invalidRequest
    | _ => .error invalidRequest
  let expiry ← integer (member request "expiresAt") 0
  let deadline ← integer (member request "deadlineAt") 0
  require (decide (timestamp ≤ expiry ∧ expiry ≤ timestamp + 30) && decide (now < expiry)
    && decide (expiry ≤ deadline ∧ deadline ≤ timestamp + 900)) expiredRequest
  let operation ← operationOf (member request "operation")
  let _ ← pathParts platform (member request "path") (operation == "list")
  match member request "expectedSha256" with
    | .string value => require (operation == "content" && hex value) invalidRequest
    | .null => require (operation != "content") invalidRequest
    | _ => .error invalidRequest
  rangeTest operation (member request "range")
  if operation == "content" then
    let _ ← canonicalUuid (member request "snapshotId")
  else require (!nonNull (member request "snapshotId")) invalidRequest
  cursorTest operation (member request "cursor")
  return expiry

structure Claim where
  (keyId nonce : String)
  expiry : Int
  now : Rat

-- authenticate up to its claim, with the one clock reading it takes.
def examine (platform : Platform) (gateway : Gateway) (headers : Headers) (body : List UInt8) (now : Rat) :
    Except Denied Claim := do
  require (decide (body.length ≤ 16384) && headers.lookup "Content-Type" == some "application/json") invalidRequest
  let keyId ← header headers "X-Ops-Read-Key-Id" keyIdPattern
  let timestamp ← header headers "X-Ops-Read-Time" timePattern
  let nonce ← header headers "X-Ops-Read-Nonce" noncePattern
  let signature ← header headers "X-Ops-Read-Signature" (repeated 64 64 lowerHex)
  let key ← match gateway.keys.lookup keyId with
    | none => .error unauthorized
    | some key => .ok key
  require (signature == platform.hmac key (encode (message platform gateway.gatewayId keyId timestamp nonce body))) unauthorized
  let time := decimalValue timestamp.toList
  require (decide (time ≤ safe) && decide (now - time ≤ 30 ∧ time - now ≤ 30)) expiredRequest
  let document ← uniqueJson platform body
  match document with
  | .object request =>
    require (keysAre request fields) invalidRequest
    let expiry ← checkRequest platform gateway time now request
    return ⟨keyId,nonce,expiry,now⟩
  | _ => .error invalidRequest

structure Row where
  (keyId nonce : String)
  expiry : Int

-- ReplayStore.claim as one transaction: the exception of a refusal rolls its
-- DELETE back, so the rows only move when the nonce is taken.
def claim (capacity : Nat) (rows : List Row) (call : Claim) : Except Denied (List Row) :=
  let live := rows.filter fun row => !decide ((row.expiry : Rat) ≤ call.now)
  if capacity ≤ live.length then .error replayStoreFull else
  if live.any fun row => row.keyId == call.keyId && row.nonce == call.nonce then .error replayedRequest
  else .ok (live++[⟨call.keyId,call.nonce,call.expiry⟩])
end LedgeTopOps.ReadGateway
