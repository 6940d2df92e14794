import LedgeTopOps.IncidentPolicy

namespace LedgeTopOps.IncidentSnapshot
open List IncidentPolicy

-- A JavaScript value with the property descriptors that exactRecord inspects: a key (none is a symbol),
-- enumerability, the data value (none is an accessor); plain: its prototype is Object.prototype.
inductive JsValue where
  | null
  | undefined
  | boolean (value : Bool)
  | number (value : Int)
  | string (value : String)
  | array (items : List JsValue)
  | object (plain : Bool) (properties : List (Option String × Bool × Option JsValue))

def exactRecord (raw : JsValue) (keys : List String) : Option (List (String × JsValue)) :=
  match raw with
  | .object true properties =>
    if properties.length ≠ keys.length
      || properties.any (fun own => !own.1.any keys.contains) then none
    else keys.mapM fun key =>
      match properties.find? (fun own => own.1 == some key) with
      | some (_,true,some value) => some (key,value)
      | _ => none
  | _ => none

def field (row : List (String × JsValue)) (key : String) : JsValue :=
  (row.lookup key).getD .undefined

def stringValue : JsValue → Option String
  | .string value => some value
  | _ => none

-- typeof value === "number" && validTime(value)
def timeValue : JsValue → Option Int
  | .number value => if validTime value then some value else none
  | _ => none

def nullable (read : JsValue → Option α) : JsValue → Option (Option α)
  | .null => some none
  | value => (read value).map some

def stateKeys : List String :=
  ["identity","category","reason","lastProbeStartedAt","lastAlertActionAt","lastVerifiedAt","incidentSequence",
    "unhealthySince","unavailableSince","alertClaimedAt","alertClaimSequence","alertAttemptedAt","alertSentAt"]

def identityKeys : List String :=
  ["sourceId","applicationId","baseUrl","expectedSourceInstanceId","expectedHistoryEpoch"]

def healthyFault (state : State) : Bool :=
  state.reason.isSome || state.unhealthySince.isSome || state.unavailableSince.isSome
    || state.alertClaimedAt.isSome || state.alertAttemptedAt.isSome || state.alertSentAt.isSome
    || (decide (state.category = .verified) && decide (state.lastVerifiedAt ≠ some state.lastProbeStartedAt))

def unavailableFault (state : State) (unhealthySince : Int) : Bool :=
  if state.category = .failure .unavailable then
    state.unavailableSince.all fun since =>
      decide (since < unhealthySince) || decide (since > state.lastProbeStartedAt)
  else state.unavailableSince.isSome

def unhealthyFault (state : State) : Bool :=
  match state.reason,state.unhealthySince with
  | some _,some unhealthySince =>
    decide (state.incidentSequence < 1) || decide (unhealthySince > state.lastProbeStartedAt)
      || state.lastVerifiedAt.any (fun verified => decide (verified ≥ unhealthySince))
      || unavailableFault state unhealthySince
  | _,_ => true

def alertTimeFault (state : State) (time : Int) : Bool :=
  match state.lastAlertActionAt,state.unhealthySince with
  | some action,some since => decide (time > action) || decide (time - since ≤ alertAfterMs)
  | _,_ => true

def attemptBeforeClaim (state : State) : Bool :=
  match state.alertClaimedAt,state.alertAttemptedAt with
  | some claimed,some attempted => decide (attempted < claimed)
  | _,_ => false

def sentFault (state : State) (sentAt : Int) : Bool :=
  state.alertClaimedAt.isSome || state.alertAttemptedAt.all (fun attempted => decide (sentAt < attempted))

def crossFieldFault (state : State) : Bool :=
  state.lastVerifiedAt.any (fun verified => decide (verified > state.lastProbeStartedAt))
    || (if state.category = .verified ∨ state.category = .disabled then healthyFault state else unhealthyFault state)
    || (decide (state.alertClaimSequence = 0) != state.lastAlertActionAt.isNone)
    || [state.alertClaimedAt,state.alertAttemptedAt,state.alertSentAt].any (fun time => time.any (alertTimeFault state))
    || attemptBeforeClaim state || state.alertSentAt.any (sentFault state)

section
variable (parseUrl : String → Option Url)

def parseIdentity (raw : JsValue) : Option Identity := do
  let row ← exactRecord raw identityKeys
  let sourceId ← stringValue (field row "sourceId")
  let applicationId ← stringValue (field row "applicationId")
  let baseUrl ← stringValue (field row "baseUrl")
  let expectedSourceInstanceId ← stringValue (field row "expectedSourceInstanceId")
  let expectedHistoryEpoch ← stringValue (field row "expectedHistoryEpoch")
  snapshotIdentity parseUrl ⟨sourceId,applicationId,baseUrl,expectedSourceInstanceId,expectedHistoryEpoch⟩

def parseProjectAlphaApiV2IncidentState (raw : JsValue) : Option State := do
  let row ← exactRecord raw stateKeys
  let identity ← parseIdentity parseUrl (field row "identity")
  let category ← (stringValue (field row "category")).bind categoryOf
  let reason ← nullable (fun value => (stringValue value).bind reasonOf) (field row "reason")
  let lastProbeStartedAt ← timeValue (field row "lastProbeStartedAt")
  let incidentSequence ← timeValue (field row "incidentSequence")
  let alertClaimSequence ← timeValue (field row "alertClaimSequence")
  let lastAlertActionAt ← nullable timeValue (field row "lastAlertActionAt")
  let lastVerifiedAt ← nullable timeValue (field row "lastVerifiedAt")
  let unhealthySince ← nullable timeValue (field row "unhealthySince")
  let unavailableSince ← nullable timeValue (field row "unavailableSince")
  let alertClaimedAt ← nullable timeValue (field row "alertClaimedAt")
  let alertAttemptedAt ← nullable timeValue (field row "alertAttemptedAt")
  let alertSentAt ← nullable timeValue (field row "alertSentAt")
  let state : State := {
    identity,category,reason,lastProbeStartedAt,lastAlertActionAt,lastVerifiedAt,incidentSequence,unhealthySince,
    unavailableSince,alertClaimedAt,alertClaimSequence,alertAttemptedAt,alertSentAt }
  if crossFieldFault state then none else some state
end

-- A state as the store reads it back: JSON.parse builds plain objects whose
-- properties are enumerable data.
def record (fields : List (String × JsValue)) : JsValue :=
  .object true (fields.map fun entry => (some entry.1,true,some entry.2))

def numberOrNull : Option Int → JsValue
  | none => .null
  | some value => .number value

def identityValue (identity : Identity) : JsValue :=
  record [("sourceId",.string identity.sourceId),("applicationId",.string identity.applicationId),
    ("baseUrl",.string identity.baseUrl),("expectedSourceInstanceId",.string identity.expectedSourceInstanceId),
    ("expectedHistoryEpoch",.string identity.expectedHistoryEpoch)]

def stateValue (state : State) : JsValue :=
  record [("identity",identityValue state.identity),("category",.string state.category.text),
    ("reason",(state.reason.map fun reason => JsValue.string reason.text).getD .null),
    ("lastProbeStartedAt",.number state.lastProbeStartedAt),
    ("lastAlertActionAt",numberOrNull state.lastAlertActionAt),
    ("lastVerifiedAt",numberOrNull state.lastVerifiedAt),
    ("incidentSequence",.number state.incidentSequence),
    ("unhealthySince",numberOrNull state.unhealthySince),
    ("unavailableSince",numberOrNull state.unavailableSince),
    ("alertClaimedAt",numberOrNull state.alertClaimedAt),
    ("alertClaimSequence",.number state.alertClaimSequence),
    ("alertAttemptedAt",numberOrNull state.alertAttemptedAt),
    ("alertSentAt",numberOrNull state.alertSentAt)]

theorem mapM_fixed {values : List α} {read : α → Option α} (each : ∀ value ∈ values, read value = some value) : values.mapM read = some values := by
  induction values with
  | nil => rfl
  | cons head _ ih =>
    have tail := ih fun value mem => each value (mem_cons_of_mem _ mem)
    simp only [mapM_cons,each head mem_cons_self,Option.bind_eq_bind,Option.bind_some,tail]
    rfl

def property (entry : String × JsValue) : Option String × Bool × Option JsValue := (some entry.1,true,some entry.2)

section
variable (fields : List (String × JsValue)) (distinct : (fields.map Prod.fst).Nodup)
include fields distinct

theorem property_found : ∀ entry ∈ fields, (fields.map property).find? (fun own => own.1 == some entry.1) = some (property entry) := by
  induction fields with
  | nil => intro entry mem; cases mem
  | cons head _ ih =>
    intro entry mem
    obtain ⟨fresh,tail⟩ := nodup_cons.mp distinct
    rcases mem_cons.mp mem with rfl | old
    · simp [property]
    have other : head.1 ≠ entry.1 := fun same => fresh (same ▸ mem_map_of_mem old)
    simpa [property,other] using ih tail entry old

theorem exactRecord_record : exactRecord (record fields) (fields.map Prod.fst) = some fields := by
  have known : (fields.map property).any (fun own => !own.1.any (fields.map Prod.fst).contains) = false := by
    rw [any_eq_false]
    intro _ mem
    obtain ⟨entry,present,rfl⟩ := mem_map.mp mem
    simpa [property] using ⟨entry.2,present⟩
  have each : (fields.map Prod.fst).mapM (fun key =>
      match (fields.map property).find? (fun own => own.1 == some key) with
      | some (_,true,some value) => some (key,value)
      | _ => none) = some fields := by
    rw [mapM_map]
    apply mapM_fixed
    intro entry mem
    rw [Function.comp_apply,property_found fields distinct entry mem]
    rfl
  have shape : (fields.map fun entry => ((some entry.1 : Option String),true,some entry.2)) = fields.map property := rfl
  simp only [exactRecord,record,shape,known]
  simpa using each
end

@[simp] theorem field_cons (key name : String) (value : JsValue) (rest : List (String × JsValue)) :
    field ((name,value) :: rest) key = if key = name then value else field rest key := by
  by_cases same : key = name
  · simp [field,same]
  have other : (key == name) = false := by simpa using same
  simp [field,lookup_cons,same,other]

@[simp] theorem stringValue_string (value : String) : stringValue (.string value) = some value := rfl

theorem nullable_number (time : Option Int) (valid : ∀ value ∈ time, validTime value) : nullable timeValue (numberOrNull time) = some time := by
  cases time with
  | none => rfl
  | some value => simp [nullable,numberOrNull,timeValue,valid value rfl]

theorem nullable_reason (reason : Option FailureReason) : nullable (fun value => (stringValue value).bind reasonOf)
      ((reason.map fun reason => JsValue.string reason.text).getD .null) = some reason := by
  cases reason with
  | none => rfl
  | some => simp [nullable,stringValue]
end LedgeTopOps.IncidentSnapshot
