import LedgeTopOps.TextPatterns

namespace LedgeTopOps.IncidentPolicy
open TextPatterns

-- Every number is compared only after Number.isSafeInteger, or with === against one that passed it: an integer
-- outside the safe range stands for a fraction, NaN or an infinity as well.
def maxSafeInteger : Int := 9007199254740991
def alertAfterMs : Int := 600000
def validTime (value : Int) : Bool := decide (0 ≤ value) && decide (value ≤ maxSafeInteger)

structure Identity where
  (sourceId applicationId baseUrl expectedSourceInstanceId expectedHistoryEpoch : String)
  deriving DecidableEq

inductive FailureStatus where
  | misconfigured | unavailable | unauthorized | incompatible | rateLimited
  deriving DecidableEq

inductive FailureReason where
  | configuration | transport | timeout | credentialsOrScope | httpStatus | rateLimit | responseLimit
  | invalidContract | sourceMismatch | applicationMismatch | historyEpochMismatch | missingCapability
  | missingEndpoint
  deriving DecidableEq

inductive Category where
  | verified
  | disabled
  | failure (status : FailureStatus)
  deriving DecidableEq

def FailureStatus.text : FailureStatus → String
  | .misconfigured => "misconfigured"
  | .unavailable => "unavailable"
  | .unauthorized => "unauthorized"
  | .incompatible => "incompatible"
  | .rateLimited => "rate_limited"

def FailureReason.text : FailureReason → String
  | .configuration => "configuration"
  | .transport => "transport"
  | .timeout => "timeout"
  | .credentialsOrScope => "credentials_or_scope"
  | .httpStatus => "http_status"
  | .rateLimit => "rate_limit"
  | .responseLimit => "response_limit"
  | .invalidContract => "invalid_contract"
  | .sourceMismatch => "source_mismatch"
  | .applicationMismatch => "application_mismatch"
  | .historyEpochMismatch => "history_epoch_mismatch"
  | .missingCapability => "missing_capability"
  | .missingEndpoint => "missing_endpoint"

def Category.text : Category → String
  | .verified => "verified"
  | .disabled => "disabled"
  | .failure status => status.text

def categories : List Category :=
  [.verified,.disabled,.failure .misconfigured,.failure .unavailable,.failure .unauthorized, .failure .incompatible,.failure .rateLimited]

def failureReasons : List FailureReason :=
  [.configuration,.transport,.timeout,.credentialsOrScope,.httpStatus,.rateLimit,.responseLimit,
    .invalidContract,.sourceMismatch,.applicationMismatch,.historyEpochMismatch,.missingCapability,
    .missingEndpoint]

def categoryOf (text : String) : Option Category := categories.find? fun category => category.text == text
def reasonOf (text : String) : Option FailureReason := failureReasons.find? fun reason => reason.text == text

@[simp] theorem categoryOf_text (category : Category) : categoryOf category.text = some category := by
  cases category with
  | verified | disabled => decide
  | failure status => cases status <;> decide

@[simp] theorem reasonOf_text (reason : FailureReason) : reasonOf reason.text = some reason := by
  cases reason <;> decide

structure State where
  identity : Identity
  category : Category
  reason : Option FailureReason
  lastProbeStartedAt : Int
  (lastAlertActionAt lastVerifiedAt : Option Int)
  incidentSequence : Int
  (unhealthySince unavailableSince alertClaimedAt : Option Int)
  alertClaimSequence : Int
  (alertAttemptedAt alertSentAt : Option Int)
  deriving DecidableEq

inductive Probe where
  | verified (sourceInstanceId applicationId historyEpoch : String)
  | failed (status : FailureStatus) (reason : FailureReason)

inductive Observation where
  | probe (startedAt : Int) (probe : Probe)
  | disabled (startedAt : Int)

def Observation.startedAt : Observation → Int
  | .probe startedAt _ => startedAt
  | .disabled startedAt => startedAt

inductive AlertEvent where
  | claim (time incidentSequence : Int)
  | reclaim (time incidentSequence claimSequence : Int)
  | attempt (time incidentSequence claimSequence : Int)
  | failed (time incidentSequence claimSequence : Int)
  | sent (time incidentSequence claimSequence : Int)

def AlertEvent.time : AlertEvent → Int
  | .claim time _ | .reclaim time _ _ | .attempt time _ _ | .failed time _ _ | .sent time _ _ => time

def AlertEvent.incident : AlertEvent → Int
  | .claim _ incident | .reclaim _ incident _ | .attempt _ incident _ | .failed _ incident _
  | .sent _ incident _ => incident

-- The platform's URL parser, as far as snapshotIdentity reads its result;
-- none is the exception of new URL.
structure Url where
  (protocol origin : String)

def uuidTest (text : String) : Bool := uuid (exactly '4') (among ['8','9','a','b']) text.toList

def sourceTest (text : String) : Bool :=
  match text.toList.splitAt "project-alpha:".toList.length with
  | (scheme,name) => decide (scheme = "project-alpha:".toList) && match name with
    | [] => false
    | first :: rest => lowerAlphanumeric first &&
        repeated 0 63 (fun c => lowerAlphanumeric c || among ['_','-'] c) rest

def sameIdentity (left right : Identity) : Bool :=
  left.sourceId == right.sourceId && left.applicationId == right.applicationId
    && left.baseUrl == right.baseUrl && left.expectedSourceInstanceId == right.expectedSourceInstanceId
    && left.expectedHistoryEpoch == right.expectedHistoryEpoch

-- base of the source, with the null fields of its disabled branch.
def observationBase (current : Option State) (identity : Identity) (startedAt : Int) : State where
  identity := identity
  category := .disabled
  reason := none
  lastProbeStartedAt := startedAt
  lastVerifiedAt := current.bind State.lastVerifiedAt
  lastAlertActionAt := current.bind State.lastAlertActionAt
  incidentSequence := (current.map State.incidentSequence).getD 0
  alertClaimSequence := (current.map State.alertClaimSequence).getD 0
  unhealthySince := none
  unavailableSince := none
  alertClaimedAt := none
  alertAttemptedAt := none
  alertSentAt := none

def failureObservation (current : Option State) (identity : Identity) (startedAt : Int)
    (category : FailureStatus) (reason : FailureReason) : State :=
  let base := observationBase current identity startedAt
  let continuing := (current.bind State.unhealthySince).isSome
  { base with
    category := .failure category
    reason := some reason
    incidentSequence := if continuing then base.incidentSequence else base.incidentSequence + 1
    unhealthySince := if continuing then current.bind State.unhealthySince else some startedAt
    unavailableSince :=
      if category = .unavailable then
        if current.map State.category = some (.failure .unavailable) then current.bind State.unavailableSince
        else some startedAt
      else none
    alertClaimedAt := if continuing then current.bind State.alertClaimedAt else none
    alertAttemptedAt := if continuing then current.bind State.alertAttemptedAt else none
    alertSentAt := if continuing then current.bind State.alertSentAt else none }

def verifiedReason (identity : Identity) (sourceInstanceId applicationId : String) : FailureReason :=
  if sourceInstanceId ≠ identity.expectedSourceInstanceId then .sourceMismatch
  else if applicationId ≠ identity.applicationId then .applicationMismatch
  else .historyEpochMismatch

def applyObservation (current : Option State) (identity : Identity) : Observation → State
  | .disabled startedAt => observationBase current identity startedAt
  | .probe startedAt (.verified sourceInstanceId applicationId historyEpoch) =>
    if sourceInstanceId = identity.expectedSourceInstanceId ∧ applicationId = identity.applicationId
      ∧ historyEpoch = identity.expectedHistoryEpoch then
      { observationBase current identity startedAt with category := .verified, lastVerifiedAt := some startedAt }
    else failureObservation current identity startedAt .incompatible
      (verifiedReason identity sourceInstanceId applicationId)
  | .probe startedAt (.failed status reason) => failureObservation current identity startedAt status reason

section
variable (parseUrl : String → Option Url)

-- none is throw Error(DENIED), here and below.
def snapshotIdentity (value : Identity) : Option Identity :=
  match parseUrl value.baseUrl with
  | none => none
  | some baseUrl =>
    if !sourceTest value.sourceId || !uuidTest value.applicationId
      || !uuidTest value.expectedSourceInstanceId || !uuidTest value.expectedHistoryEpoch
      || baseUrl.protocol != "https:" || baseUrl.origin != value.baseUrl then none
    else some ⟨value.sourceId,value.applicationId,value.baseUrl,value.expectedSourceInstanceId,
      value.expectedHistoryEpoch⟩

def observeProjectAlphaApiV2Incident (current : Option State) (rawIdentity : Identity)
    (observation : Observation) : Option State :=
  match snapshotIdentity parseUrl rawIdentity with
  | none => none
  | some identity =>
    if !validTime observation.startedAt || current.any (fun state => !sameIdentity state.identity identity) then none
    else if current.any (fun state => decide (observation.startedAt ≤ state.lastProbeStartedAt)) then current
    else some (applyObservation current identity observation)
end

-- current !== null && at >= current, with null admitting every time.
def notBefore (time : Int) : Option Int → Bool
  | none => true
  | some earlier => decide (earlier ≤ time)

def projectAlphaApiV2AlertEligible (state : State) (time : Int) : Bool :=
  validTime time && notBefore time state.lastAlertActionAt && decide (state.lastProbeStartedAt ≤ time)
    && state.unhealthySince.any (fun since => decide (time - since > alertAfterMs))
    && state.alertClaimedAt.isNone && state.alertSentAt.isNone

def attemptedSince (state : State) (claimedAt : Int) : Bool :=
  state.alertAttemptedAt.any fun attempted => decide (claimedAt ≤ attempted)

def advanceProjectAlphaApiV2Alert (current : State) (event : AlertEvent) : State :=
  if !validTime event.time || decide (event.incident ≠ current.incidentSequence)
    || !notBefore event.time current.lastAlertActionAt then current
  else
    -- Every action but claim asks for the latest claim of an unsent alert.
    let held (claimSequence : Int) (act : Int → State) : State :=
      match current.unhealthySince,current.alertClaimedAt,current.alertSentAt with
      | some _,some claimedAt,none =>
        if claimSequence = current.alertClaimSequence then act claimedAt else current
      | _,_,_ => current
    match event with
    | .claim time _ =>
      if !projectAlphaApiV2AlertEligible current time then current
      else { current with
        lastAlertActionAt := some time
        alertClaimedAt := some time
        alertClaimSequence := current.alertClaimSequence + 1
        alertAttemptedAt := none }
    | .reclaim time _ claimSequence => held claimSequence fun _ => { current with
        lastAlertActionAt := some time
        alertClaimedAt := some time
        alertClaimSequence := current.alertClaimSequence + 1
        alertAttemptedAt := none }
    | .attempt time _ claimSequence => held claimSequence fun claimedAt =>
        if attemptedSince current claimedAt then current
        else { current with lastAlertActionAt := some time, alertAttemptedAt := some time }
    | .failed time _ claimSequence => held claimSequence fun claimedAt =>
        if !attemptedSince current claimedAt then current
        else { current with lastAlertActionAt := some time, alertClaimedAt := none }
    | .sent time _ claimSequence => held claimSequence fun claimedAt =>
        if !attemptedSince current claimedAt then current
        else { current with lastAlertActionAt := some time, alertClaimedAt := none, alertSentAt := some time }

-- What one event can do, as rules that hold their guards; advance_follows
-- says the function takes no other step.
structure Timely (current : State) (event : AlertEvent) : Prop where
  valid : validTime event.time = true
  incident : event.incident = current.incidentSequence
  ordered : ∀ earlier ∈ current.lastAlertActionAt, earlier ≤ event.time

structure Held (current : State) (claimSequence since claimedAt : Int) : Prop where
  unhealthy : current.unhealthySince = some since
  claimed : current.alertClaimedAt = some claimedAt
  unsent : current.alertSentAt = none
  holder : claimSequence = current.alertClaimSequence

def claimedState (current : State) (time : Int) : State :=
  { current with
    lastAlertActionAt := some time
    alertClaimedAt := some time
    alertClaimSequence := current.alertClaimSequence + 1
    alertAttemptedAt := none }

inductive AlertStep : State → AlertEvent → State → Prop where
  | ignored : AlertStep current event current
  | claim (timely : Timely current (.claim time incident))
      (eligible : projectAlphaApiV2AlertEligible current time = true) :
      AlertStep current (.claim time incident) (claimedState current time)
  | reclaim (timely : Timely current (.reclaim time incident claimSequence))
      (held : Held current claimSequence since claimedAt) :
      AlertStep current (.reclaim time incident claimSequence) (claimedState current time)
  | attempt (timely : Timely current (.attempt time incident claimSequence))
      (held : Held current claimSequence since claimedAt) :
      AlertStep current (.attempt time incident claimSequence)
        { current with lastAlertActionAt := some time, alertAttemptedAt := some time }
  | failed (timely : Timely current (.failed time incident claimSequence))
      (held : Held current claimSequence since claimedAt) (attempted : attemptedSince current claimedAt = true) :
      AlertStep current (.failed time incident claimSequence)
        { current with lastAlertActionAt := some time, alertClaimedAt := none }
  | sent (timely : Timely current (.sent time incident claimSequence))
      (held : Held current claimSequence since claimedAt) (attempted : attemptedSince current claimedAt = true) :
      AlertStep current (.sent time incident claimSequence)
        { current with lastAlertActionAt := some time, alertClaimedAt := none, alertSentAt := some time }

theorem notBefore_iff : notBefore time bound ↔ ∀ earlier ∈ bound, earlier ≤ time := by
  cases bound <;> simp [notBefore]

theorem timely_of_guard (guard : ¬(!validTime event.time || decide (event.incident ≠ current.incidentSequence)
    || !notBefore event.time current.lastAlertActionAt)) : Timely current event := by
  simp only [Bool.or_eq_true,not_or,Bool.not_eq_true,Bool.not_eq_false',decide_eq_true_eq] at guard
  exact ⟨guard.1.1,of_not_not guard.1.2,notBefore_iff.mp guard.2⟩

theorem advance_follows (current : State) (event : AlertEvent) : AlertStep current event (advanceProjectAlphaApiV2Alert current event) := by
  unfold advanceProjectAlphaApiV2Alert
  split
  · exact .ignored
  rename_i guard
  have timely := timely_of_guard guard
  cases event with
  | claim time incident =>
    simp only
    split
    · exact .ignored
    rename_i eligible
    exact .claim timely (by simpa using eligible)
  | reclaim time incident claimSequence =>
    simp only
    split
    · rename_i since claimedAt unhealthy claimed unsent
      split
      · rename_i holder
        exact .reclaim timely ⟨unhealthy,claimed,unsent,holder⟩
      exact .ignored
    exact .ignored
  | attempt time incident claimSequence =>
    simp only
    split
    · rename_i since claimedAt unhealthy claimed unsent
      split
      · rename_i holder
        split
        · exact .ignored
        exact .attempt timely ⟨unhealthy,claimed,unsent,holder⟩
      exact .ignored
    exact .ignored
  | failed time incident claimSequence =>
    simp only
    split
    · rename_i since claimedAt unhealthy claimed unsent
      split
      · rename_i holder
        split
        · exact .ignored
        rename_i attempted
        exact .failed timely ⟨unhealthy,claimed,unsent,holder⟩ (by simpa using attempted)
      exact .ignored
    exact .ignored
  | sent time incident claimSequence =>
    simp only
    split
    · rename_i since claimedAt unhealthy claimed unsent
      split
      · rename_i holder
        split
        · exact .ignored
        rename_i attempted
        exact .sent timely ⟨unhealthy,claimed,unsent,holder⟩ (by simpa using attempted)
      exact .ignored
    exact .ignored

theorem eligible_facts (eligible : projectAlphaApiV2AlertEligible current time) :
    (∃ since, current.unhealthySince = some since ∧ alertAfterMs < time - since) ∧ current.alertClaimedAt = none ∧ current.alertSentAt = none := by
  simp only [projectAlphaApiV2AlertEligible,Bool.and_eq_true,Option.any_eq_true,decide_eq_true_eq, Option.isNone_iff_eq_none] at eligible
  exact ⟨eligible.1.1.2,eligible.1.2,eligible.2⟩

theorem observe_follows (observed : observeProjectAlphaApiV2Incident parseUrl current rawIdentity observation = some next) : current = some next ∨
      ∃ identity, snapshotIdentity parseUrl rawIdentity = some identity ∧ validTime observation.startedAt ∧
        (∀ state ∈ current, state.lastProbeStartedAt < observation.startedAt) ∧ next = applyObservation current identity observation := by
  unfold observeProjectAlphaApiV2Incident at observed
  split at observed
  · cases observed
  rename_i identity known
  split at observed
  · cases observed
  rename_i admitted
  simp only [Bool.or_eq_true,not_or,Bool.not_eq_true,Bool.not_eq_false'] at admitted
  split at observed
  · exact .inl observed
  rename_i fresh
  refine .inr ⟨identity,known,admitted.1,?_,(Option.some.inj observed).symm⟩
  intro _ present
  cases present
  simpa using fresh

theorem snapshotIdentity_fixed (known : snapshotIdentity parseUrl rawIdentity = some identity) : identity = rawIdentity := by
  unfold snapshotIdentity at known
  split at known
  · cases known
  split at known
  · cases known
  exact (Option.some.inj known).symm
end LedgeTopOps.IncidentPolicy
