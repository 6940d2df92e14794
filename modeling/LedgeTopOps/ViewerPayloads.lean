import LedgeTopOps.TextReplacing

namespace LedgeTopOps.ViewerPayloads
open List JsonText TextReplacing
open Bool (or_eq_true and_eq_true)

-- The processing events of the Viewer, from their names and messages to the text the outbox keeps. An empty text also
-- stands for a value not given, as String(value||'') reads it.
def bounded (value : Text) (max : Nat) : Text := (trim value).take max
def unitIn (units : String) (c : UInt16) : Bool := (ascii units).contains c
def letter (c : UInt16) : Bool := (decide (0x41 ≤ c) && decide (c ≤ 0x5A)) || (decide (0x61 ≤ c) && decide (c ≤ 0x7A))
def numeric (c : UInt16) : Bool := decide (0x30 ≤ c) && decide (c ≤ 0x39)
def lowerHex (c : UInt16) : Bool := numeric c || (decide (0x61 ≤ c) && decide (c ≤ 0x66))
def words (names : List String) : Piece := choice (names.map fun name => anyCase (ascii name))

-- The expressions of sanitizeLogMessage, in their order.
def secretParameter : Search :=
  behind (after (one (unitIn "?&")) (after (words ["token","secret","signature","key","password"]) (literal (ascii "="))))
    (several fun c => !unitIn "&" c && !blank c) (ascii "[REDACTED]")

def secretName : Piece :=
  choice [words ["token","secret","signature","password"],after (words ["api"]) (after (maybe (unitIn "_-")) (words ["key"]))]

def secretSetting : Search :=
  atBoundary (behind (after secretName (after (many blank) (after (one (unitIn ":=")) (many blank))))
    (several fun c => !blank c && !unitIn ",;" c) (ascii "[REDACTED]"))

def authorization : Search :=
  atBoundary (whole (after (words ["Bearer","Basic"]) (after (several blank)
    (several fun c => letter c || numeric c || unitIn "._~+/=-" c))) (ascii "[REDACTED AUTHORIZATION]"))

def localPath : Search :=
  let rest : Piece := several fun c => !blank c && !unitIn "\"'" c
  either (atBoundary (whole (after (one letter) (after (literal (ascii ":\\")) rest)) (ascii "[REDACTED PATH]")))
    (whole (after (choice (["/mnt/","/home/","/app/"].map fun name => literal (ascii name))) rest) (ascii "[REDACTED PATH]"))

def lineBreaks : Search := whole (several fun c => c == 0x0D || c == 0x0A || c == 0x09) (ascii " ")

def sanitizeLogMessage (value : Text) : Text :=
  ([secretParameter,secretSetting,authorization,localPath,lineBreaks].foldl (fun value search => replaceAll search value) value).take (64 * 1024)

def safeMessage (message : Text) : Text := (sanitizeLogMessage message).take 1000

example : sanitizeLogMessage (ascii "GET /a?Key=x1&b /home/u/f C:\\d Basic  Zm8= api_key : q") =
    ascii "GET /a?Key=[REDACTED]&b [REDACTED PATH] [REDACTED PATH] [REDACTED AUTHORIZATION] api_key : [REDACTED]" := by decide +kernel

structure Project where
  (id displayName : Text)

structure Task where
  (id projectId displayName : Text)

structure Wanted where
  (id displayName : Text)

def Wanted.identity (wanted : Wanted) (randomUUID : Text) : Text := if wanted.id = [] then randomUUID else wanted.id

def createProject (randomUUID : Text) (taken : Bool) (input : Wanted) : Except String Project :=
  let displayName := bounded input.displayName 240
  if displayName = [] then .error "display name is required" else
  if taken then .error "an active project already uses this name" else
  .ok ⟨input.identity randomUUID,displayName⟩

-- The name of a task is not checked here.
def createTask (randomUUID : Text) (matching : Bool) (project : Project) (input : Wanted) : Except String Task :=
  if !matching then .error "task project and finalized dataset must match" else
  .ok ⟨input.identity randomUUID,project.id,bounded input.displayName 240⟩

def opaqueUnit (c : UInt16) : Bool := letter c || numeric c || unitIn "_-" c

def opaqueText : Text → Bool
  | [] => false
  | c :: rest => (letter c || numeric c) && rest.all opaqueUnit

-- crypto.randomUUID(): five groups of hexadecimal digits.
structure Hex (n : Nat) where
  text : Text
  long : text.length = n
  hex : ∀ c ∈ text, lowerHex c = true

structure Uuid where
  timeLow : Hex 8
  (timeMid timeHigh clock : Hex 4)
  node : Hex 12

def Uuid.text (uuid : Uuid) : Text :=
  uuid.timeLow.text++0x2D :: (uuid.timeMid.text++0x2D :: (uuid.timeHigh.text++0x2D :: (uuid.clock.text++0x2D :: uuid.node.text)))

structure Subject where
  account : Text
  short : account.length ≤ 128
  shape : opaqueText account = true

def Subject.text (subject : Subject) : Text := ascii "ops:"++subject.account

structure Attempt where
  id : Uuid
  createdBy : Subject

structure Work where
  project : Project
  task : Task
  attempt : Attempt
  created : ∃ randomUUID taken input, createProject randomUUID taken input = .ok project
  drafted : ∃ randomUUID matching input, createTask randomUUID matching project input = .ok task

abbrev Draft := List (String × Option Json)

def assign (name : String) (value : Option Json) : Draft → Draft
  | [] => [(name,value)]
  | member :: rest => if member.1 = name then (name,value) :: rest else member :: assign name value rest

def member (draft : Draft) (name : String) : Option Json := (draft.lookup name).bind id

def settled (draft : Draft) : List (String × Json) := draft.filterMap fun member => member.2.map fun value => (member.1,value)

def textOf : Option Json → Text
  | some (.string text) => text
  | some (.number 0) => []
  | some (.number (n+1)) => decimal (n+1)
  | some (.object _) => ascii "[object Object]"
  | none => []

def Json.property (name : String) : Json → Option Json
  | .object members => members.lookup name
  | _ => none

structure Row where
  (id type payload : Text)

def summary (code message : Text) : Json := .object [("code",.string code),("message",.string message)]

def clean (id : Text) (payload : Draft) : Draft :=
  assign "error" ((member payload "error").map fun error =>
      summary (bounded (textOf (Json.property "code" error)) 80) (safeMessage (textOf (Json.property "message" error))))
    (assign "eventId" (some (.string id)) payload)

def enqueueEvent (randomUUID : Text) (outbox : List Row) (type : Text) (payload : Draft) : Except String (Text × List Row) :=
  let named := textOf (member payload "eventId")
  let id := if named = [] then randomUUID else named
  let serialized := stringify (.object (settled (clean id payload)))
  if 64 * 1024 < utf8Length serialized then .error "event payload exceeds 64 KiB" else
  (outbox.find? fun row => row.id = id).elim (.ok (id,outbox++[⟨id,type,serialized⟩])) fun existing =>
    if existing.payload ≠ serialized ∨ existing.type ≠ type then .error "eventId already has a different payload" else .ok (id,outbox)

def unreserved (c : UInt16) : Bool := letter c || numeric c || unitIn "-_.!~*'()" c
def upperHexDigit (n : Nat) : UInt16 := if n < 10 then UInt16.ofNat (48 + n) else UInt16.ofNat (55 + n)
def percent (byte : Nat) : Text := [0x25,upperHexDigit (byte / 16),upperHexDigit (byte % 16)]

def utf8Bytes (point : Nat) : List Nat :=
  if point < 0x80 then [point] else
  if point < 0x800 then [0xC0 + point / 64,0x80 + point % 64] else
  if point < 0x10000 then [0xE0 + point / 4096,0x80 + point / 64 % 64,0x80 + point % 64] else
  [0xF0 + point / 262144,0x80 + point / 4096 % 64,0x80 + point / 64 % 64,0x80 + point % 64]

def encodeFrom : Option UInt16 → Text → Option Text
  | none,[] => some []
  | some _,[] => none
  | some upper,c :: rest =>
    if low c then
      (encodeFrom none rest).map ((utf8Bytes (0x10000 + (upper.toNat - 0xD800) * 0x400 + (c.toNat - 0xDC00))).flatMap percent++·)
    else none
  | none,c :: rest =>
    if low c then none else
    if high c then encodeFrom (some c) rest else
    (encodeFrom none rest).map ((if unreserved c then [c] else (utf8Bytes c.toNat).flatMap percent)++·)

-- none is the URIError of a lone surrogate.
def encodeURIComponent (text : Text) : Option Text := encodeFrom none text

-- How often a failed derivative was started again; the driver refuses to read
-- a count that is not a safe integer.
structure Retries where
  count : Nat
  safe : count < 9007199254740992

inductive Notice where
  -- failJobTerminal, from a job whose project may be gone by then
  | job (purged : Bool) (code message : Text)
  | derivative (retries : Retries) (code message : Text)
  | exhausted (retries : Retries) (timedOut : Bool)
  | ready

def fixed (value : String) : Option Json := some (.string (ascii value))

def header (eventId : Text) (type : String) : Draft :=
  [("eventId",some (.string eventId)),("schemaVersion",some (.number 1)),("type",fixed type)]

def described (work : Work) (projectName : Option Json) (status : String) : Draft :=
  [("projectId",some (.string work.task.projectId)),("projectDisplayName",projectName),("taskId",some (.string work.task.id)),
   ("taskDisplayName",some (.string work.task.displayName)),("attemptId",some (.string work.attempt.id.text)),
   ("requestedBySubject",some (.string work.attempt.createdBy.text)),("status",fixed status)]

def failedEventId (attempt : Uuid) : Text := ascii "processing-failed-"++attempt.text

def retriedEventId (attempt : Uuid) (retries : Retries) : Text :=
  if retries.count = 0 then failedEventId attempt else failedEventId attempt++ascii "-retry-"++decimal retries.count

-- The event that processOne and processReconcile pass on.
def terminalEvent (work : Work) (purged : Bool) : Draft :=
  header (failedEventId work.attempt.id) "processing.failed" ++
    described work (if purged then none else some (.string work.project.displayName)) "failed"

def failJobTerminal (occurredAt code message : Text) (event : Draft) : Draft :=
  assign "error" (some (summary (bounded code 80) (safeMessage message))) (assign "occurredAt" (some (.string occurredAt)) event)

def failedEvent (work : Work) (retries : Retries) (occurredAt code message : Text) : Draft :=
  header (retriedEventId work.attempt.id retries) "processing.failed"++[("occurredAt",some (.string occurredAt))] ++
    described work (some (.string work.project.displayName)) "failed"++[("error",some (summary code message))]

def failDerivative (work : Work) (retries : Retries) (occurredAt code message : Text) : Draft :=
  failedEvent work retries occurredAt (bounded code 80) (safeMessage message)

def terminalizeExhaustedDerivatives (work : Work) (retries : Retries) (occurredAt : Text) (timedOut : Bool) : Draft :=
  if timedOut then failedEvent work retries occurredAt (ascii "derivative_timeout") (ascii "derivative wall-clock deadline expired")
  else failedEvent work retries occurredAt (ascii "derivative_retry_exhausted") (ascii "derivative lease retry limit exhausted")

def reviewUrl (opsBaseUrl : Text) (attempt : Text) : Option Text :=
  (encodeURIComponent attempt).map fun encoded => opsBaseUrl++ascii "/operations/processing?attemptId="++encoded

def processingReadyEvent (opsBaseUrl : Text) (work : Work) : Option Draft :=
  (reviewUrl opsBaseUrl work.attempt.id.text).map fun url =>
    header (ascii "processing-ready-"++work.attempt.id.text) "processing.ready_for_review" ++
      described work (some (.string work.project.displayName)) "ready_for_review"++[("reviewUrl",some (.string url))]

def completeOutputForReview (occurredAt : Text) (event : Draft) : Draft := assign "occurredAt" (some (.string occurredAt)) event

-- The emission of a notice; none is an event that could not be built.
def payload (opsBaseUrl occurredAt : Text) (work : Work) : Notice → Option Draft
  | .job purged code message => some (failJobTerminal occurredAt code message (terminalEvent work purged))
  | .derivative retries code message => some (failDerivative work retries occurredAt code message)
  | .exhausted retries timedOut => some (terminalizeExhaustedDerivatives work retries occurredAt timedOut)
  | .ready => (processingReadyEvent opsBaseUrl work).map (completeOutputForReview occurredAt)

def eventType : Notice → Text
  | .ready => ascii "processing.ready_for_review"
  | _ => ascii "processing.failed"

def emit (opsBaseUrl occurredAt randomUUID : Text) (outbox : List Row) (work : Work) (notice : Notice) : Except String (Text × List Row) :=
  (payload opsBaseUrl occurredAt work notice).elim (.error "URI malformed") (enqueueEvent randomUUID outbox (eventType notice))

theorem letter_iff : letter c ↔ (0x41 ≤ c.toNat ∧ c.toNat ≤ 0x5A) ∨ (0x61 ≤ c.toNat ∧ c.toNat ≤ 0x7A) := by
  simp only [letter,or_eq_true,and_eq_true,decide_eq_true_eq,UInt16.le_iff_toNat_le]
  rfl

theorem numeric_iff : numeric c ↔ 0x30 ≤ c.toNat ∧ c.toNat ≤ 0x39 := by
  simp only [numeric,and_eq_true,decide_eq_true_eq,UInt16.le_iff_toNat_le]
  rfl

theorem unitIn_iff : unitIn units c ↔ c ∈ ascii units := contains_iff_mem

theorem opaqueUnit_cases (unit : opaqueUnit c) : letter c ∨ numeric c ∨ c = 0x5F ∨ c = 0x2D := by
  simp only [opaqueUnit,or_eq_true,unitIn_iff] at unit
  rcases unit with (letters | digits) | other
  · exact .inl letters
  · exact .inr (.inl digits)
  have two : c ∈ [(0x5F : UInt16),0x2D] := other
  simp only [mem_cons,not_mem_nil,or_false] at two
  exact .inr (.inr two)

theorem opaqueUnit_plain (unit : opaqueUnit c) : 0x20 ≤ c ∧ c < 0x80 ∧ c ≠ 0x22 ∧ c ≠ 0x5C := by
  rcases opaqueUnit_cases unit with letters | digits | rfl | rfl
  · rw [letter_iff] at letters
    exact plain_unit (by omega) (by omega) (by omega) (by omega)
  · rw [numeric_iff] at digits
    exact plain_unit (by omega) (by omega) (by omega) (by omega)
  · decide
  decide

theorem opaqueUnit_start (unit : (letter c || numeric c)) : opaqueUnit c := by
  simp only [opaqueUnit,unit,Bool.true_or]

theorem opaqueText_units (shape : opaqueText text) : ∀ c ∈ text, opaqueUnit c := by
  cases text with
  | nil => cases shape
  | cons =>
    simp only [opaqueText,and_eq_true,all_eq_true] at shape
    intro c inside
    rcases mem_cons.mp inside with rfl | later
    · exact opaqueUnit_start shape.1
    exact shape.2 c later

theorem opaqueText_plain (shape : opaqueText text) : Plain text := fun c inside => opaqueUnit_plain (opaqueText_units shape c inside)

theorem opaqueText_append (shape : opaqueText front) (rest : ∀ c ∈ back, opaqueUnit c) : opaqueText (front++back) := by
  cases front with
  | nil => cases shape
  | cons =>
    simp only [opaqueText,and_eq_true,all_eq_true] at shape
    simp only [cons_append,opaqueText,and_eq_true,all_eq_true]
    refine ⟨shape.1,fun c inside => ?_⟩
    rcases mem_append.mp inside with old | new
    · exact shape.2 c old
    exact rest c new

theorem lowerHex_start (hex : lowerHex c) : (letter c || numeric c) := by
  simp only [lowerHex,or_eq_true,and_eq_true,decide_eq_true_eq,UInt16.le_iff_toNat_le] at hex
  rw [or_eq_true]
  rcases hex with digits | letters
  · exact .inr digits
  refine .inl (letter_iff.mpr (.inr ?_))
  have bounds : 0x61 ≤ c.toNat ∧ c.toNat ≤ 0x66 := letters
  omega

theorem Hex.units (group : Hex n) : ∀ c ∈ group.text, opaqueUnit c := fun c inside =>
  opaqueUnit_start (lowerHex_start (group.hex c inside))

theorem Uuid.length (uuid : Uuid) : uuid.text.length = 36 := by
  simp only [Uuid.text,length_append,length_cons,uuid.timeLow.long,uuid.timeMid.long,uuid.timeHigh.long,uuid.clock.long,uuid.node.long]

theorem Uuid.shape (uuid : Uuid) : opaqueText uuid.text := by
  have dashed : ∀ text : Text, (∀ c ∈ text, opaqueUnit c) → ∀ c ∈ (0x2D :: text : Text), opaqueUnit c := by
    intro _ units c inside
    rcases mem_cons.mp inside with rfl | later
    · decide
    exact units c later
  have joined : ∀ (group : Text) (rest : Text), (∀ c ∈ group, opaqueUnit c) → (∀ c ∈ rest, opaqueUnit c) →
      ∀ c ∈ group++rest, opaqueUnit c := fun group rest front back c inside =>
    (mem_append.mp inside).elim (front c) (back c)
  refine opaqueText_append ?_ (dashed _ (joined _ _ uuid.timeMid.units (dashed _ (joined _ _ uuid.timeHigh.units
    (dashed _ (joined _ _ uuid.clock.units (dashed _ uuid.node.units)))))))
  obtain ⟨text,long,hex⟩ := uuid.timeLow
  cases text with
  | nil => cases long
  | cons first =>
    simp only [opaqueText,and_eq_true,all_eq_true]
    exact ⟨lowerHex_start (hex first mem_cons_self), fun c inside => opaqueUnit_start (lowerHex_start (hex c (mem_cons_of_mem _ inside)))⟩

theorem decimal_units (n : Nat) : ∀ c ∈ decimal n, numeric c := by
  intro c inside
  obtain ⟨d,small,rfl⟩ := decimal_digits inside
  rw [numeric_iff,digit,UInt16.toNat_ofNat']
  omega

theorem decimal_ids (n : Nat) : ∀ c ∈ decimal n, opaqueUnit c := fun c inside =>
  opaqueUnit_start (by rw [decimal_units n c inside,Bool.or_true])

theorem unreserved_ids (unit : opaqueUnit c) : unreserved c := by
  simp only [unreserved]
  rcases opaqueUnit_cases unit with letters | digits | rfl | rfl
  · simp only [letters,Bool.true_or]
  · simp only [digits,Bool.true_or,Bool.or_true]
  · decide
  decide

theorem encodeURIComponent_ids (units : ∀ c ∈ text, opaqueUnit c) : encodeURIComponent text = some text := by
  unfold encodeURIComponent
  induction text with
  | nil => rfl
  | cons c _ ih =>
    have here := units c mem_cons_self
    have apart := basic_surrogates (opaqueUnit_plain here).2.1
    simp only [encodeFrom,apart.1,apart.2,Bool.false_eq_true,if_false,unreserved_ids here,if_true,
      ih (fun d inside => units d (mem_cons_of_mem _ inside)),Option.map_some,singleton_append]
end LedgeTopOps.ViewerPayloads
