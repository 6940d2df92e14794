import Mathlib.Tactic.NormNum
import LedgeTopOps.ReadGateway
import LedgeTopOps.KeyedRows
import LedgeTopOps.StepRuns

namespace LedgeTopOps.ReplayProtection
open TextPatterns ReadGateway KeyedRows StepRuns

-- A call that passed every check up to its claim: the request it was given, and
-- the clock reading it still carries.
structure Call where
  id : Nat
  headers : Headers
  body : List UInt8
  claim : Claim

structure World where
  clock : Rat
  rows : List Row
  (waiting accepted : List Call)

def World.initial (clock : Rat) : World := ⟨clock,[],[],[]⟩

inductive Event where
  | tick (clock : Rat)
  | authenticate (id : Nat) (headers : Headers) (body : List UInt8)
  | claim (id : Nat) (storeFails : Bool)

def advance (platform : Platform) (gateway : Gateway) (world : World) : Event → World
  | .tick clock => { world with clock }
  | .authenticate id headers body => match examine platform gateway headers body world.clock with
    | .error _ => world
    | .ok claim => { world with waiting := world.waiting++[⟨id,headers,body,claim⟩] }
  | .claim id storeFails => match find Call.id world.waiting id with
    | none => world
    | some call =>
      let waiting := drop Call.id world.waiting id
      if storeFails then { world with waiting } else
      match claim gateway.capacity world.rows call.claim with
      | .error _ => { world with waiting }
      | .ok rows => { world with rows, waiting, accepted := world.accepted++[call] }

-- The clock does not go back, and a call is a call of its own.
def Admissible (world : World) : Event → Prop
  | .tick clock => world.clock ≤ clock
  | .authenticate id _ _ => ∀ call ∈ world.waiting, call.id ≠ id
  | .claim _ _ => True

def Step (platform : Platform) (gateway : Gateway) : World → Event → World → Prop :=
  Guarded (fun before event after => advance platform gateway before event = after) Admissible

def Apart (first second : Call) : Prop :=
  ¬(first.claim.keyId = second.claim.keyId ∧ first.claim.nonce = second.claim.nonce)

def AcceptedOnce (world : World) : Prop := world.accepted.Pairwise Apart

-- Neither the call nor any call accepted since carries a clock reading at or
-- past the expiry under which its key id and nonce were first taken.
def UnoutlivedBy (call : Call) : List Call → Prop
  | [] => True
  | earlier :: rest =>
    (Apart earlier call ∨ call.claim.now < earlier.claim.expiry ∧ ∀ later ∈ rest, later.claim.now < earlier.claim.expiry) ∧ UnoutlivedBy call rest

def Unoutlived (world : World) : Event → Prop
  | .claim id _ => ∀ call ∈ find Call.id world.waiting id, UnoutlivedBy call world.accepted
  | _ => True

variable {platform : Platform} {gateway : Gateway}

def rowOf (call : Call) : Row := ⟨call.claim.keyId,call.claim.nonce,call.claim.expiry⟩

theorem claim_ok (taken : claim capacity rows call = .ok after) :
    (∀ row ∈ rows, call.now < row.expiry → row ∈ after) ∧ ⟨call.keyId,call.nonce,call.expiry⟩ ∈ after ∧
      ∀ row ∈ rows, call.now < row.expiry → ¬(row.keyId = call.keyId ∧ row.nonce = call.nonce) := by
  simp only [claim] at taken
  split at taken
  · cases taken
  split at taken
  · cases taken
  rename_i unused
  cases taken
  have live : ∀ row ∈ rows, call.now < row.expiry → row ∈ rows.filter fun row => !decide ((row.expiry : Rat) ≤ call.now) :=
    fun row mem later => List.mem_filter.mpr ⟨mem,by simpa using Rat.not_le.mpr later⟩
  refine ⟨fun row mem later => List.mem_append_left _ (live row mem later),by simp,?_⟩
  intro row mem later same
  exact unused (List.any_eq_true.mpr ⟨row,live row mem later,by simp [same.1,same.2]⟩)

def Remembered (rows : List Row) : List Call → Prop
  | [] => True
  | earlier :: rest =>
    ((∀ later ∈ rest, later.claim.now < earlier.claim.expiry) → rowOf earlier ∈ rows) ∧ Remembered rows rest

structure Protected (world : World) : Prop where
  once : AcceptedOnce world
  remembered : Remembered world.rows world.accepted

theorem claim_remembered (before : Remembered rows accepted) (taken : claim capacity rows call.claim = .ok after) : Remembered after (accepted++[call]) := by
  obtain ⟨kept,added,_⟩ := claim_ok taken
  induction accepted with
  | nil => exact ⟨fun _ => added,trivial⟩
  | cons earlier _ ih =>
    refine ⟨fun within => ?_,ih before.2⟩
    exact kept (rowOf earlier) (before.1 fun later there => within later (by simp [there])) (within call (by simp))

theorem claim_apart (remembered : Remembered rows accepted) (unoutlived : UnoutlivedBy call accepted)
    (taken : claim capacity rows call.claim = .ok after) : ∀ earlier ∈ accepted, Apart earlier call := by
  induction accepted with
  | nil => exact nofun
  | cons _ _ ih =>
    intro earlier mem
    rcases List.mem_cons.mp mem with rfl | deep
    · rcases unoutlived.1 with apart | ⟨now,since⟩
      · exact apart
      · exact (claim_ok taken).2.2 (rowOf earlier) (remembered.1 since) now
    exact ih remembered.2 unoutlived.2 earlier deep

theorem step_protected (valid : Protected before) (step : Guarded (Step platform gateway) Unoutlived before event after) : Protected after := by
  obtain ⟨⟨rfl,admissible⟩,unoutlived⟩ := step
  cases event with
  | tick => exact ⟨valid.once,valid.remembered⟩
  | authenticate =>
    simp only [advance]
    split
    · exact valid
    exact ⟨valid.once,valid.remembered⟩
  | claim id storeFails =>
    simp only [advance]
    cases found : find Call.id before.waiting id with
    | none => exact valid
    | some call =>
      simp only
      split
      · exact ⟨valid.once,valid.remembered⟩
      split
      · exact ⟨valid.once,valid.remembered⟩
      rename_i rows taken
      have apart := claim_apart valid.remembered (unoutlived call found) taken
      refine ⟨List.pairwise_append.mpr ⟨valid.once,List.pairwise_singleton _ _,?_⟩,claim_remembered valid.remembered taken⟩
      intro earlier mem _ new
      cases List.mem_singleton.mp new
      exact apart earlier mem

theorem accepted_once (platform : Platform) (gateway : Gateway) (clock : Rat) (events : List Event) (world : World)
    (path : Runs (Guarded (Step platform gateway) Unoutlived) (.initial clock) events world) : AcceptedOnce world := by
  have start : Protected (.initial clock) := ⟨List.Pairwise.nil,trivial⟩
  exact (path.preserves Protected (fun _ _ _ valid step => step_protected valid step) start).once

-- Two calls with one request read the clock before its expiry; one stalls before its claim while a request read at
-- the expiry is taken.
def stalledEvents (headers laterHeaders : Headers) (body laterBody : List UInt8) (clock : Rat) : List Event :=
  [.authenticate 1 headers body,.authenticate 2 headers body,.claim 1 false, .tick clock,.authenticate 3 laterHeaders laterBody,.claim 3 false,.claim 2 false]

def promptEvents (headers laterHeaders : Headers) (body laterBody : List UInt8) (clock : Rat) : List Event :=
  [.authenticate 1 headers body,.authenticate 2 headers body,.claim 1 false,.claim 2 false, .tick clock,.authenticate 3 laterHeaders laterBody,.claim 3 false]

section
variable {clock : Rat}

section
variable (examined : examine platform gateway headers body start = .ok first) (laterExamined : examine platform gateway laterHeaders laterBody clock = .ok later) (reading : first.now = start) (laterReading : later.now = clock) (forward : start ≤ clock)
include examined laterExamined reading laterReading forward

theorem stalled_accepted
    (outlived : (first.expiry : Rat) ≤ clock) (laterLive : start < later.expiry) (room : 2 ≤ gateway.capacity)
    (apart : later.nonce ≠ first.nonce) :
    let events := stalledEvents headers laterHeaders body laterBody clock
    let world := events.foldl (advance platform gateway) (.initial start)
    Admitted (advance platform gateway) Admissible (.initial start) events ∧
      world.accepted = [⟨1,headers,body,first⟩,⟨3,laterHeaders,laterBody,later⟩,⟨2,headers,body,first⟩] := by
  have none : ¬gateway.capacity ≤ 0 := by omega
  have one : ¬gateway.capacity ≤ 1 := by omega
  simp [stalledEvents,Admitted,Admissible,advance,World.initial,examined,laterExamined,find,drop,claim,
    none,one,outlived,reading,laterReading,Rat.not_le.mpr laterLive,forward,apart]

theorem prompt_admitted (live : start < first.expiry) (room : 2 ≤ gateway.capacity) (apart : later.nonce ≠ first.nonce) :
    Admitted (advance platform gateway) (fun s e => Admissible s e ∧ Unoutlived s e) (.initial start)
      (promptEvents headers laterHeaders body laterBody clock) := by
  have none : ¬gateway.capacity ≤ 0 := by omega
  have one : ¬gateway.capacity ≤ 1 := by omega
  simp [promptEvents,Admitted,Admissible,Unoutlived,UnoutlivedBy,Apart,advance,World.initial,examined,laterExamined,find,drop,
    claim,none,one,reading,laterReading,Rat.not_le.mpr live,live,forward,Ne.symm apart]
end
end

def commonFields : List String := [
  "\x7b\"schemaVersion\":1,",
  "\"gatewayId\":\"10000000-0000-4000-8000-000000000001\",",
  "\"rootId\":\"20000000-0000-4000-8000-000000000002\",",
  "\"rootGeneration\":1,",
  "\"rootFingerprint\":\"aaaaaaaaaaaaaaaaaaaaaaaaaaaaaaaaaaaaaaaaaaaaaaaaaaaaaaaaaaaaaaaa\",",
  "\"staffId\":\"synthetic-staff\",",
  "\"accessSubject\":\"synthetic|human\",\"admissionVersion\":2,",
  "\"profileVersion\":3,",
  "\"grantId\":\"30000000-0000-4000-8000-000000000003\",",
  "\"grantGeneration\":4,"]

def contentBody : List UInt8 := (commonFields++[
  "\"operation\":\"content\",\"path\":\"photos/Map 01.jpg\",",
  "\"expectedSha256\":\"bbbbbbbbbbbbbbbbbbbbbbbbbbbbbbbbbbbbbbbbbbbbbbbbbbbbbbbbbbbbbbbb\",",
  "\"range\":\x7b\"start\":1024,\"end\":2047\x7d,\"expiresAt\":1792638030,",
  "\"deadlineAt\":1792638900,\"cursor\":null,",
  "\"snapshotId\":\"40000000-0000-4000-8000-000000000004\"\x7d"]).flatMap encode

def listBody : List UInt8 := (commonFields++[
  "\"operation\":\"list\",\"path\":\"\",\"expectedSha256\":null,",
  "\"range\":null,\"expiresAt\":1792638050,\"deadlineAt\":1792638900,",
  "\"cursor\":null,\"snapshotId\":null\x7d"]).flatMap encode

def exampleFields (operation path : String) (digest range snapshotId : Json) (expiresAt : Int) : Json := .object
  [("schemaVersion",.integer 1),("gatewayId",.string "10000000-0000-4000-8000-000000000001"),
    ("rootId",.string "20000000-0000-4000-8000-000000000002"),("rootGeneration",.integer 1),
    ("rootFingerprint",.string "aaaaaaaaaaaaaaaaaaaaaaaaaaaaaaaaaaaaaaaaaaaaaaaaaaaaaaaaaaaaaaaa"),
    ("staffId",.string "synthetic-staff"),("accessSubject",.string "synthetic|human"),
    ("admissionVersion",.integer 2),("profileVersion",.integer 3),
    ("grantId",.string "30000000-0000-4000-8000-000000000003"),("grantGeneration",.integer 4),
    ("operation",.string operation),("path",.string path),("expectedSha256",digest),("range",range),
    ("expiresAt",.integer expiresAt),("deadlineAt",.integer 1792638900),("cursor",.null),("snapshotId",snapshotId)]

def contentFields : Json := exampleFields "content" "photos/Map 01.jpg"
  (.string "bbbbbbbbbbbbbbbbbbbbbbbbbbbbbbbbbbbbbbbbbbbbbbbbbbbbbbbbbbbbbbbb")
  (.object [("start",.integer 1024),("end",.integer 2047)]) (.string "40000000-0000-4000-8000-000000000004") 1792638030

def listFields : Json := exampleFields "list" "" .null .null .null 1792638050
def contentDigest : String := "e98530d34008a97eb6de53af8ab6721e25b35ed5b3f52f95b3e9a65e042f48cc"
def listDigest : String := "5bf222b328df7c258281b4b1bb53ea7254282c9819d23f1f2c2b9fedff336ea2"
def contentSignature : String := "e30345fb8f0a18f951ccd6cf4dcba6da9a6a552a2838b6a8a7fc2a24a76eb8e1"
def listSignature : String := "b819c23b7d8246c4fcb21934a76cd5218400c9f61dd7c445d462d3bb434c6b85"

def signedText (timestamp nonce digest : String) : String :=
  "ops-employee-read-v1\n10000000-0000-4000-8000-000000000001\nsynthetic-key\n"++timestamp++"\n"++nonce ++
    "\nPOST\n/v1/read\n"++digest

def examplePlatform : Platform where
  sha256 body := if body.length = 673 then contentDigest else listDigest
  hmac _ text :=
    if text = encode (signedText "1792638000" "cccccccccccccccccccccccccccccccc" contentDigest) then contentSignature
    else if text = encode (signedText "1792638025" "dddddddddddddddddddddddddddddddd" listDigest) then listSignature
    else ""
  loads body := some (if body.length = 673 then contentFields else listFields)
  isSpace c := c == ' '
  category c := if lowerLetter c then "Ll" else if upperLetter c then "Lu" else if decimal c then "Nd"
    else if c == '-' then "Pd" else if c == '|' then "Sm" else if c == ' ' then "Zs" else "Po"

def exampleGateway : Gateway :=
  ⟨"10000000-0000-4000-8000-000000000001",[("synthetic-key",(List.range 32).map Nat.toUInt8)],10000,by decide⟩

def exampleHeaders (timestamp nonce signature : String) : Headers :=
  [("Content-Type","application/json"),("X-Ops-Read-Key-Id","synthetic-key"),("X-Ops-Read-Time",timestamp),
    ("X-Ops-Read-Nonce",nonce),("X-Ops-Read-Signature",signature)]

def contentHeaders : Headers := exampleHeaders "1792638000" "cccccccccccccccccccccccccccccccc" contentSignature
def listHeaders : Headers := exampleHeaders "1792638025" "dddddddddddddddddddddddddddddddd" listSignature

theorem require_of {condition : Bool} (holds : condition) (denied : Denied) : require condition denied = .ok () :=
  if_pos holds

theorem examine_ok {headers : Headers} {now : Rat} {request : List (String × Json)} {expiry : Int}
    (shape : (decide (body.length ≤ 16384) && headers.lookup "Content-Type" == some "application/json"))
    (keyed : header headers "X-Ops-Read-Key-Id" keyIdPattern = .ok keyId) (timed : header headers "X-Ops-Read-Time" timePattern = .ok timestamp)
    (nonced : header headers "X-Ops-Read-Nonce" noncePattern = .ok nonce)
    (signed : header headers "X-Ops-Read-Signature" (repeated 64 64 lowerHex) = .ok signature) (known : gateway.keys.lookup keyId = some key)
    (agrees : platform.hmac key (encode (message platform gateway.gatewayId keyId timestamp nonce body)) = signature)
    (fresh : (decide (decimalValue timestamp.toList ≤ safe) && decide (now - decimalValue timestamp.toList ≤ 30 ∧ decimalValue timestamp.toList - now ≤ 30)))
    (read : uniqueJson platform body = .ok (.object request)) (named : keysAre request fields)
    (checked : checkRequest platform gateway (decimalValue timestamp.toList) now request = .ok expiry) :
    examine platform gateway headers body now = .ok ⟨keyId,nonce,expiry,now⟩ := by
  have matching : (signature == platform.hmac key (encode (message platform gateway.gatewayId keyId timestamp nonce body))) :=
    beq_iff_eq.mpr agrees.symm
  simp only [examine,require_of shape,keyed,timed,nonced,signed,known,require_of matching,require_of fresh,read,
    require_of named,checked,bind,Except.bind,pure,Except.pure]

theorem signedText_front : "ops-employee-read-v1\n10000000-0000-4000-8000-000000000001\nsynthetic-key\n" =
    "ops-employee-read-v1"++("\n"++("10000000-0000-4000-8000-000000000001"++("\n"++("synthetic-key"++"\n")))) := by
  rfl

theorem signedText_back : "\nPOST\n/v1/read\n" = "\n"++("POST"++("\n"++("/v1/read"++"\n"))) := by
  rfl

theorem message_signed (platform : Platform) (timestamp nonce : String) (body : List UInt8) :
    message platform "10000000-0000-4000-8000-000000000001" "synthetic-key" timestamp nonce body = signedText timestamp nonce (platform.sha256 body) := by
  unfold message signedText
  simp only [String.intercalate_cons_cons,String.intercalate_singleton,String.append_assoc]
  simp only [signedText_front,signedText_back,String.append_assoc]

theorem bodies_length : contentBody.length = 673 ∧ listBody.length = 536 := by decide +kernel

theorem content_examined : examine examplePlatform exampleGateway contentHeaders contentBody 1792638010 =
    .ok ⟨"synthetic-key","cccccccccccccccccccccccccccccccc",1792638030,1792638010⟩ := by
  have length := bodies_length.1
  have digest : examplePlatform.sha256 contentBody = contentDigest := if_pos length
  have document : examplePlatform.loads contentBody = some contentFields := congrArg some (if_pos length)
  have small : contentBody.length ≤ 16384 := by simp [length]
  have read : uniqueJson examplePlatform contentBody = .ok contentFields := by
    simp [uniqueJson,document,small,contentFields,exampleFields,uniquePairs,uniqueMembers]
  refine examine_ok ?_ rfl rfl rfl rfl rfl ?_ ?_ read ?_ ?_
  · simp [small,contentHeaders,exampleHeaders]
  · rw [show exampleGateway.gatewayId = "10000000-0000-4000-8000-000000000001" from rfl,message_signed,digest]
    exact if_pos rfl
  · have time : decimalValue "1792638000".toList = 1792638000 := by decide
    rw [time,safe]
    norm_num
  · decide
  decide +kernel

theorem list_examined : examine examplePlatform exampleGateway listHeaders listBody 1792638030 =
    .ok ⟨"synthetic-key","dddddddddddddddddddddddddddddddd",1792638050,1792638030⟩ := by
  have length := bodies_length.2
  have other : ¬listBody.length = 673 := by simp [length]
  have digest : examplePlatform.sha256 listBody = listDigest := if_neg other
  have document : examplePlatform.loads listBody = some listFields := congrArg some (if_neg other)
  have small : listBody.length ≤ 16384 := by simp [length]
  have read : uniqueJson examplePlatform listBody = .ok listFields := by
    simp [uniqueJson,document,small,listFields,exampleFields,uniquePairs,uniqueMembers]
  refine examine_ok ?_ rfl rfl rfl rfl rfl ?_ ?_ read ?_ ?_
  · simp [small,listHeaders,exampleHeaders]
  · rw [show exampleGateway.gatewayId = "10000000-0000-4000-8000-000000000001" from rfl,message_signed,digest]
    exact (if_neg (by decide +kernel)).trans (if_pos rfl)
  · have time : decimalValue "1792638025".toList = 1792638025 := by decide
    rw [time,safe]
    norm_num
  · decide
  decide +kernel

theorem stalled_claim_accepted_again : ∃ platform gateway clock events world, Runs (Step platform gateway) (.initial clock) events world ∧
      (world.accepted.map fun call => (call.headers,call.body)) =
        [(contentHeaders,contentBody),(listHeaders,listBody),(contentHeaders,contentBody)] ∧ ¬AcceptedOnce world := by
  obtain ⟨admitted,accepted⟩ := stalled_accepted content_examined list_examined rfl rfl (by norm_num) (by norm_num) (by norm_num) (by decide) (by decide)
  refine ⟨examplePlatform,exampleGateway,1792638010,_,_,Runs.admitted _ _ _ admitted,?_,?_⟩
  · rw [accepted]; rfl
  rw [AcceptedOnce,accepted]
  simp [Apart]

theorem accepted_once_example :
    let events := promptEvents contentHeaders listHeaders contentBody listBody 1792638030
    AcceptedOnce (events.foldl (advance examplePlatform exampleGateway) (.initial 1792638010)) :=
  accepted_once examplePlatform exampleGateway 1792638010 _ _ (Runs.nested (Runs.admitted _ _ _
    (prompt_admitted content_examined list_examined rfl rfl (by norm_num) (by norm_num) (by decide) (by decide))))
end LedgeTopOps.ReplayProtection
