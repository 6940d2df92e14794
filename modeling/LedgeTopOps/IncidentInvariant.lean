import LedgeTopOps.IncidentSnapshot
import LedgeTopOps.StepRuns

namespace LedgeTopOps.IncidentInvariant
open IncidentPolicy IncidentSnapshot StepRuns Option

-- The validator's cross-field conditions as facts. coherent_iff says they are
-- exactly what crossFieldFault refuses.
structure Quiet (state : State) : Prop where
  reason : state.reason = none
  unhealthy : state.unhealthySince = none
  unavailable : state.unavailableSince = none
  claimed : state.alertClaimedAt = none
  attempted : state.alertAttemptedAt = none
  sent : state.alertSentAt = none

structure Degraded (state : State) (since : Int) : Prop where
  unhealthy : state.unhealthySince = some since
  reason : state.reason.isSome = true
  counted : 1 ≤ state.incidentSequence
  observed : since ≤ state.lastProbeStartedAt
  verified : ∀ verified ∈ state.lastVerifiedAt, verified < since
  unavailable : state.category = .failure .unavailable →
    ∃ from', state.unavailableSince = some from' ∧ since ≤ from' ∧ from' ≤ state.lastProbeStartedAt
  available : state.category ≠ .failure .unavailable → state.unavailableSince = none

def AlertTime (state : State) (time : Int) : Prop :=
  ∃ action since, state.lastAlertActionAt = some action ∧ state.unhealthySince = some since ∧
    time ≤ action ∧ alertAfterMs < time - since

structure Coherent (state : State) : Prop where
  verified : ∀ verified ∈ state.lastVerifiedAt, verified ≤ state.lastProbeStartedAt
  quiet : state.category = .verified ∨ state.category = .disabled → Quiet state
  current : state.category = .verified → state.lastVerifiedAt = some state.lastProbeStartedAt
  degraded : ∀ status, state.category = .failure status → ∃ since, Degraded state since
  counted : state.alertClaimSequence = 0 ↔ state.lastAlertActionAt = none
  claimTime : ∀ time ∈ state.alertClaimedAt, AlertTime state time
  attemptTime : ∀ time ∈ state.alertAttemptedAt, AlertTime state time
  sentTime : ∀ time ∈ state.alertSentAt, AlertTime state time
  attempt : ∀ claimed ∈ state.alertClaimedAt, ∀ attempted ∈ state.alertAttemptedAt, claimed ≤ attempted
  sent : ∀ sent ∈ state.alertSentAt, state.alertClaimedAt = none ∧
    ∃ attempted, state.alertAttemptedAt = some attempted ∧ attempted ≤ sent

theorem healthyFault_iff : healthyFault state = false ↔ Quiet state ∧ (state.category = .verified → state.lastVerifiedAt = some state.lastProbeStartedAt) := by
  constructor
  · intro passed
    simp only [healthyFault,Bool.or_eq_false_iff,isSome_eq_false_iff,isNone_iff_eq_none,
      Bool.and_eq_false_iff,decide_eq_false_iff_not,not_not] at passed
    obtain ⟨⟨⟨⟨⟨⟨reason,unhealthy⟩,unavailable⟩,claimed⟩,attempted⟩,sent⟩,current⟩ := passed
    exact ⟨⟨reason,unhealthy,unavailable,claimed,attempted,sent⟩,fun same => current.resolve_left (· same)⟩
  rintro ⟨quiet,current⟩
  simp only [healthyFault,quiet.reason,quiet.unhealthy,quiet.unavailable,quiet.claimed,quiet.attempted,quiet.sent]
  by_cases same : state.category = .verified
  · simp [current same]
  simp [same]

theorem unavailableFault_iff : unavailableFault state since = false ↔ (state.category = .failure .unavailable →
      ∃ from', state.unavailableSince = some from' ∧ since ≤ from' ∧ from' ≤ state.lastProbeStartedAt) ∧
    (state.category ≠ .failure .unavailable → state.unavailableSince = none) := by
  unfold unavailableFault
  by_cases same : state.category = .failure .unavailable
  · cases from' : state.unavailableSince with
    | none | some from' => simp [same]
  simp [same]

theorem unhealthyFault_iff : unhealthyFault state = false ↔ ∃ since, Degraded state since := by
  unfold unhealthyFault
  constructor
  · intro passed
    split at passed
    · rename_i reason since known unhealthy
      simp only [Bool.or_eq_false_iff,decide_eq_false_iff_not,any_eq_false] at passed
      obtain ⟨⟨⟨counted,observed⟩,verified⟩,unavailable⟩ := passed
      have parts := unavailableFault_iff.mp unavailable
      refine ⟨since,unhealthy,by simp [known],by omega,by omega,?_,parts.1,parts.2⟩
      intro time mem
      simpa using verified time mem
    cases passed
  rintro ⟨since,degraded⟩
  obtain ⟨reason,known⟩ := isSome_iff_exists.mp degraded.reason
  have counted := degraded.counted
  have observed := degraded.observed
  have unavailable := unavailableFault_iff.mpr ⟨degraded.unavailable,degraded.available⟩
  have verified : (state.lastVerifiedAt.any fun verified => decide (verified ≥ since)) = false := by
    rw [any_eq_false]
    intro time mem
    simpa using degraded.verified time mem
  simp only [known,degraded.unhealthy,verified,unavailable,Bool.or_false,Bool.or_eq_false_iff,
    decide_eq_false_iff_not]
  omega

theorem alertTimeFault_iff : alertTimeFault state time = false ↔ AlertTime state time := by
  unfold alertTimeFault AlertTime
  cases state.lastAlertActionAt with
  | none => simp
  | some action => cases state.unhealthySince with
    | none => simp
    | some since =>
      simp only [Bool.or_eq_false_iff,decide_eq_false_iff_not,some.injEq]
      constructor
      · intro ⟨ordered,late⟩
        exact ⟨action,since,rfl,rfl,by omega,by omega⟩
      intro ⟨_,_,sameAction,sameSince,ordered,late⟩
      exact ⟨by omega,by omega⟩

theorem attemptBeforeClaim_iff : attemptBeforeClaim state = false ↔
    ∀ claimed ∈ state.alertClaimedAt, ∀ attempted ∈ state.alertAttemptedAt, claimed ≤ attempted := by
  unfold attemptBeforeClaim
  cases state.alertClaimedAt <;> cases state.alertAttemptedAt <;> simp

theorem sentFault_iff : sentFault state sent = false ↔ state.alertClaimedAt = none ∧
    ∃ attempted, state.alertAttemptedAt = some attempted ∧ attempted ≤ sent := by
  unfold sentFault
  cases state.alertClaimedAt <;> cases state.alertAttemptedAt <;> simp

theorem coherent_iff : crossFieldFault state = false ↔ Coherent state := by
  have counted : ((decide (state.alertClaimSequence = 0) != state.lastAlertActionAt.isNone) = false) ↔
      (state.alertClaimSequence = 0 ↔ state.lastAlertActionAt = none) := by
    rw [bne_eq_false_iff_eq,Bool.eq_iff_iff]
    simp
  have branch : ((if state.category = .verified ∨ state.category = .disabled then healthyFault state
      else unhealthyFault state) = false) ↔
      (state.category = .verified ∨ state.category = .disabled → Quiet state) ∧
      (state.category = .verified → state.lastVerifiedAt = some state.lastProbeStartedAt) ∧
      ∀ status, state.category = .failure status → ∃ since, Degraded state since := by
    cases kind : state.category with
    | verified | disabled => simp [kind,healthyFault_iff]
    | failure => simp [unhealthyFault_iff]
  have verified : (state.lastVerifiedAt.any fun verified => decide (verified > state.lastProbeStartedAt)) = false ↔
      ∀ verified ∈ state.lastVerifiedAt, verified ≤ state.lastProbeStartedAt := by
    simp [any_eq_false]
  simp only [crossFieldFault,Bool.or_eq_false_iff,branch,counted,verified,attemptBeforeClaim_iff,
    List.any_cons,List.any_nil,any_eq_false,alertTimeFault_iff,sentFault_iff]
  constructor
  · rintro ⟨⟨⟨⟨⟨v,quiet,now,degraded⟩,count⟩,claim,attempted,sent,-⟩,order⟩,final⟩
    exact ⟨v,quiet,now,degraded,count,claim,attempted,sent,order,final⟩
  intro valid
  exact ⟨⟨⟨⟨⟨valid.verified,valid.quiet,valid.current,valid.degraded⟩,valid.counted⟩,
    valid.claimTime,valid.attemptTime,valid.sentTime,trivial⟩,valid.attempt⟩,valid.sent⟩

-- What every reachable state satisfies. The validator's bound on the counters is a hypothesis of reachable_accepted
-- only.
structure Consistent (parseUrl : String → Option Url) (state : State) : Prop extends Coherent state where
  identity : snapshotIdentity parseUrl state.identity = some state.identity
  probeTime : validTime state.lastProbeStartedAt = true
  actionValid : ∀ time ∈ state.lastAlertActionAt, validTime time = true
  verifiedValid : ∀ time ∈ state.lastVerifiedAt, validTime time = true
  unhealthyValid : ∀ time ∈ state.unhealthySince, validTime time = true
  unavailableValid : ∀ time ∈ state.unavailableSince, validTime time = true
  claimedValid : ∀ time ∈ state.alertClaimedAt, validTime time = true
  attemptedValid : ∀ time ∈ state.alertAttemptedAt, validTime time = true
  sentValid : ∀ time ∈ state.alertSentAt, validTime time = true
  incidents : 0 ≤ state.incidentSequence
  claims : 0 ≤ state.alertClaimSequence

theorem parseIdentity_value (known : snapshotIdentity parseUrl identity = some identity) : parseIdentity parseUrl (identityValue identity) = some identity := by
  have row : exactRecord (identityValue identity) identityKeys = some _ := exactRecord_record _ (by simp)
  simp only [parseIdentity,row,bind_eq_bind,bind_some]
  simpa using known

theorem bind_known {α β : Type} {x : Option α} {value : α} {read : α → Option β} {result : Option β} (known : x = some value) (rest : read value = result) :
    (x >>= read) = result := by
  rw [known]
  exact rest

theorem parse_value (valid : Consistent parseUrl state) (incidents : state.incidentSequence ≤ maxSafeInteger)
    (claims : state.alertClaimSequence ≤ maxSafeInteger) : parseProjectAlphaApiV2IncidentState parseUrl (stateValue state) = some state := by
  have written : exactRecord (stateValue state) stateKeys = some _ := exactRecord_record _ (by simp)
  obtain ⟨fields,row⟩ := isSome_iff_exists.mp (written ▸ rfl : (exactRecord (stateValue state) stateKeys).isSome)
  have shape := row.symm.trans written
  have incidentTime : timeValue (.number state.incidentSequence) = some state.incidentSequence := by
    simp [timeValue,validTime,valid.incidents,incidents]
  have claimTime : timeValue (.number state.alertClaimSequence) = some state.alertClaimSequence := by
    simp [timeValue,validTime,valid.claims,claims]
  have probeTime : timeValue (.number state.lastProbeStartedAt) = some state.lastProbeStartedAt := by
    simp [timeValue,valid.probeTime]
  -- One step of the parser at a time: each key reads its own entry back.
  have times : ∀ {time : Option Int} {key : String}, (∀ value ∈ time, validTime value) →
      field fields key = numberOrNull time → nullable timeValue (field fields key) = some time :=
    fun valid found => found ▸ nullable_number _ valid
  refine bind_known row (bind_known (?_ : parseIdentity parseUrl (field fields "identity") = some state.identity)
    (bind_known (?_ : (stringValue (field fields "category")).bind categoryOf = some state.category)
    (bind_known (?_ : nullable _ (field fields "reason") = some state.reason)
    (bind_known (?_ : timeValue (field fields "lastProbeStartedAt") = some state.lastProbeStartedAt)
    (bind_known (?_ : timeValue (field fields "incidentSequence") = some state.incidentSequence)
    (bind_known (?_ : timeValue (field fields "alertClaimSequence") = some state.alertClaimSequence)
    (bind_known (times valid.actionValid ?_) (bind_known (times valid.verifiedValid ?_)
    (bind_known (times valid.unhealthyValid ?_) (bind_known (times valid.unavailableValid ?_)
    (bind_known (times valid.claimedValid ?_) (bind_known (times valid.attemptedValid ?_)
    (bind_known (times valid.sentValid ?_) ?_)))))))))))))
  all_goals cases shape
  · exact parseIdentity_value valid.identity
  · exact categoryOf_text state.category
  · exact nullable_reason state.reason
  · exact probeTime
  · exact incidentTime
  · exact claimTime
  · rfl
  · rfl
  · rfl
  · rfl
  · rfl
  · rfl
  · rfl
  · have quiet := coherent_iff.mpr valid.toCoherent
    exact if_neg (by simp [quiet])

structure Fresh (parseUrl : String → Option Url) (current : Option State) (identity : Identity)
    (startedAt : Int) : Prop where
  known : snapshotIdentity parseUrl identity = some identity
  valid : validTime startedAt = true
  consistent : ∀ state ∈ current, Consistent parseUrl state
  newer : ∀ state ∈ current, state.lastProbeStartedAt < startedAt

section
variable (fresh : Fresh parseUrl current identity startedAt)
include fresh

theorem Fresh.verified_before : ∀ time ∈ current.bind State.lastVerifiedAt, time < startedAt ∧ validTime time := by
  intro time mem
  obtain ⟨state,here,verified⟩ := bind_eq_some_iff.mp mem
  have bound := (fresh.consistent state here).verified time verified
  have newer := fresh.newer state here
  exact ⟨by omega,(fresh.consistent state here).verifiedValid time verified⟩

theorem Fresh.action_valid : ∀ time ∈ current.bind State.lastAlertActionAt, validTime time := by
  intro time mem
  obtain ⟨state,here,action⟩ := bind_eq_some_iff.mp mem
  exact (fresh.consistent state here).actionValid time action

theorem Fresh.counted : (current.map State.alertClaimSequence).getD 0 = 0 ↔ current.bind State.lastAlertActionAt = none := by
  cases current with
  | none => simp
  | some state => exact (fresh.consistent state rfl).counted

theorem Fresh.counters : 0 ≤ (current.map State.incidentSequence).getD 0 ∧ 0 ≤ (current.map State.alertClaimSequence).getD 0 := by
  cases current with
  | none => simp
  | some state => exact ⟨(fresh.consistent state rfl).incidents,(fresh.consistent state rfl).claims⟩

theorem disabled_consistent :
    Consistent parseUrl (observationBase current identity startedAt) where
  verified := fun time mem => Int.le_of_lt (fresh.verified_before time mem).1
  quiet := fun _ => ⟨rfl,rfl,rfl,rfl,rfl,rfl⟩
  current := nofun
  degraded := nofun
  counted := fresh.counted
  claimTime := nofun
  attemptTime := nofun
  sentTime := nofun
  attempt := nofun
  sent := nofun
  identity := fresh.known
  probeTime := fresh.valid
  actionValid := fresh.action_valid
  verifiedValid := fun time mem => (fresh.verified_before time mem).2
  unhealthyValid := nofun
  unavailableValid := nofun
  claimedValid := nofun
  attemptedValid := nofun
  sentValid := nofun
  incidents := fresh.counters.1
  claims := fresh.counters.2

theorem verified_consistent : Consistent parseUrl { observationBase current identity startedAt with category := .verified, lastVerifiedAt := some startedAt } :=
  { disabled_consistent fresh with
    verified := by intro time mem; cases mem; exact Int.le_refl _
    quiet := fun _ => ⟨rfl,rfl,rfl,rfl,rfl,rfl⟩
    current := fun _ => rfl
    degraded := nofun
    verifiedValid := by intro time mem; cases mem; exact fresh.valid }
end

theorem unhealthy_degraded (valid : Coherent state) (unhealthy : state.unhealthySince = some since) : Degraded state since := by
  cases kind : state.category with
  | verified => have quiet := (valid.quiet (.inl kind)).unhealthy; rw [unhealthy] at quiet; cases quiet
  | disabled => have quiet := (valid.quiet (.inr kind)).unhealthy; rw [unhealthy] at quiet; cases quiet
  | failure status =>
    obtain ⟨_,degraded⟩ := valid.degraded status kind
    have same := degraded.unhealthy
    rw [unhealthy] at same
    cases same
    exact degraded

theorem category_unhealthy (valid : Coherent state) (kind : state.category = .failure status) : ∃ since, state.unhealthySince = some since := by
  obtain ⟨since,degraded⟩ := valid.degraded status kind
  exact ⟨since,degraded.unhealthy⟩

theorem continued_consistent (fresh : Fresh parseUrl (some state) identity startedAt)
    (unhealthy : state.unhealthySince = some since) (status : FailureStatus) (reason : FailureReason) :
    Consistent parseUrl (failureObservation (some state) identity startedAt status reason) := by
  have before := fresh.consistent state rfl
  have newer := fresh.newer state rfl
  have degraded := unhealthy_degraded before.toCoherent unhealthy
  have observed := degraded.observed
  have sinceValid := before.unhealthyValid since unhealthy
  have unavailable : status = .unavailable → ∃ from', (failureObservation (some state) identity startedAt status
      reason).unavailableSince = some from' ∧ since ≤ from' ∧ from' ≤ startedAt ∧ validTime from' := by
    rintro rfl
    by_cases kind : state.category = .failure .unavailable
    · obtain ⟨from',known,lower,upper⟩ := degraded.unavailable kind
      exact ⟨from',by simp [failureObservation,kind,known],lower,by omega,before.unavailableValid from' known⟩
    exact ⟨startedAt,by simp [failureObservation,kind],by omega,Int.le_refl _,fresh.valid⟩
  have available : status ≠ .unavailable → (failureObservation (some state) identity startedAt status reason).unavailableSince = none := by
    intro other; simp [failureObservation,other]
  have shape : failureObservation (some state) identity startedAt status reason = { observationBase (some state) identity startedAt with
        category := .failure status
        reason := some reason
        unhealthySince := some since
        unavailableSince := (failureObservation (some state) identity startedAt status reason).unavailableSince
        alertClaimedAt := state.alertClaimedAt
        alertAttemptedAt := state.alertAttemptedAt
        alertSentAt := state.alertSentAt } := by
    simp [failureObservation,unhealthy]
  -- The alert times read only lastAlertActionAt and unhealthySince, both kept.
  have keep : ∀ time, AlertTime state time → AlertTime (failureObservation (some state) identity startedAt status reason) time := by
    rintro _ ⟨action,start,known,began,late,ripe⟩
    rw [shape]
    exact ⟨action,start,known,unhealthy ▸ began,late,ripe⟩
  rw [shape] at keep ⊢
  exact { disabled_consistent fresh with
    quiet := by rintro (kind | kind) <;> cases kind
    current := nofun
    degraded := by
      intro other kind
      cases kind
      refine ⟨since,rfl,rfl,degraded.counted,by simpa [observationBase] using (by omega : since ≤ startedAt), degraded.verified,?_,?_⟩
      · intro same
        cases same
        obtain ⟨from',known,lower,upper,_⟩ := unavailable rfl
        exact ⟨from',known,lower,upper⟩
      intro different
      exact available fun same => different (congrArg Category.failure same)
    claimTime := fun time mem => keep time (before.claimTime time mem)
    attemptTime := fun time mem => keep time (before.attemptTime time mem)
    sentTime := fun time mem => keep time (before.sentTime time mem)
    attempt := before.attempt
    sent := before.sent
    unhealthyValid := by intro time mem; cases mem; exact sinceValid
    unavailableValid := by
      intro _ mem
      by_cases kind : status = .unavailable
      · obtain ⟨_,known,_,_,valid⟩ := unavailable kind
        cases known.symm.trans mem
        exact valid
      cases (available kind).symm.trans mem
    claimedValid := before.claimedValid
    attemptedValid := before.attemptedValid
    sentValid := before.sentValid }

theorem opened_consistent (fresh : Fresh parseUrl current identity startedAt)
    (healthy : current.bind State.unhealthySince = none) (status : FailureStatus) (reason : FailureReason) :
    Consistent parseUrl (failureObservation current identity startedAt status reason) := by
  have notUnavailable : current.map State.category ≠ some (.failure .unavailable) := by
    intro kind
    obtain ⟨state,here,same⟩ := map_eq_some_iff.mp kind
    obtain ⟨_,unhealthy⟩ := category_unhealthy (fresh.consistent state here).toCoherent same
    rw [here] at healthy
    simp [unhealthy] at healthy
  have counters := fresh.counters
  have shape : failureObservation current identity startedAt status reason = { observationBase current identity startedAt with
        category := .failure status
        reason := some reason
        incidentSequence := (current.map State.incidentSequence).getD 0 + 1
        unhealthySince := some startedAt
        unavailableSince := if status = .unavailable then some startedAt else none } := by
    simp [failureObservation,healthy,notUnavailable,observationBase]
  rw [shape]
  exact { disabled_consistent fresh with
    quiet := by rintro (kind | kind) <;> cases kind
    current := nofun
    degraded := by
      intro other kind
      cases kind
      refine ⟨startedAt,rfl,rfl,by simp only; omega,Int.le_refl _, fun time mem => (fresh.verified_before time mem).1,?_,?_⟩
      · intro same; cases same; exact ⟨startedAt,rfl,Int.le_refl _,Int.le_refl _⟩
      intro different; exact if_neg fun same => different (congrArg Category.failure same)
    claimTime := nofun
    attemptTime := nofun
    sentTime := nofun
    attempt := nofun
    sent := nofun
    unhealthyValid := by intro time mem; cases mem; exact fresh.valid
    unavailableValid := by
      intro _ mem
      obtain ⟨_,same⟩ := ite_none_right_eq_some.mp mem
      cases same
      exact fresh.valid
    claimedValid := nofun
    attemptedValid := nofun
    sentValid := nofun
    incidents := by simp only; omega }

theorem failure_consistent (fresh : Fresh parseUrl current identity startedAt) (status : FailureStatus) (reason : FailureReason) :
    Consistent parseUrl (failureObservation current identity startedAt status reason) := by
  cases healthy : current.bind State.unhealthySince with
  | none => exact opened_consistent fresh healthy status reason
  | some =>
    obtain ⟨_,rfl,unhealthy⟩ := bind_eq_some_iff.mp healthy
    exact continued_consistent fresh unhealthy status reason

theorem apply_consistent (fresh : Fresh parseUrl current identity observation.startedAt) :
    Consistent parseUrl (applyObservation current identity observation) := by
  cases observation with
  | disabled => exact disabled_consistent fresh
  | probe _ probe => cases probe with
    | failed status reason => exact failure_consistent fresh status reason
    | verified =>
      simp only [applyObservation]
      split
      · exact verified_consistent fresh
      exact failure_consistent fresh _ _

theorem observe_consistent (valid : ∀ state ∈ current, Consistent parseUrl state)
    (observed : observeProjectAlphaApiV2Incident parseUrl current rawIdentity observation = some next) : Consistent parseUrl next := by
  rcases observe_follows observed with stale | ⟨identity,known,time,newer,rfl⟩
  · exact valid next stale
  cases snapshotIdentity_fixed known
  exact apply_consistent ⟨known,time,valid,newer⟩

def Acceptable (state : State) (time : Int) (field : Option Int) : Prop :=
  ∀ value ∈ field, (AlertTime state value ∧ validTime value = true) ∨ value = time

section
variable (valid : Consistent parseUrl state)
include valid

theorem acted_consistent (unhealthy : state.unhealthySince = some since)
    (timely : Timely state event) (ripe : alertAfterMs < event.time - since)
    (sequence : 0 < claimSequence) (claim : Acceptable state event.time claimedAt)
    (attempt : Acceptable state event.time attemptedAt) (sending : Acceptable state event.time sentAt)
    (order : ∀ claimed ∈ claimedAt, ∀ attempted ∈ attemptedAt, claimed ≤ attempted)
    (final : ∀ sent ∈ sentAt, claimedAt = none ∧ ∃ attempted, attemptedAt = some attempted ∧ attempted ≤ sent) :
    Consistent parseUrl { state with
      lastAlertActionAt := some event.time
      alertClaimedAt := claimedAt
      alertClaimSequence := claimSequence
      alertAttemptedAt := attemptedAt
      alertSentAt := sentAt } := by
  have times : ∀ {field}, Acceptable state event.time field → ∀ value ∈ field, AlertTime { state with
      lastAlertActionAt := some event.time
      alertClaimedAt := claimedAt
      alertClaimSequence := claimSequence
      alertAttemptedAt := attemptedAt
      alertSentAt := sentAt } value := by
    intro _ acceptable value mem
    rcases acceptable value mem with ⟨⟨action,start,known,began,late,old⟩,_⟩ | rfl
    · exact ⟨event.time,start,rfl,began,Int.le_trans late (timely.ordered action known),old⟩
    exact ⟨event.time,since,rfl,unhealthy,Int.le_refl _,ripe⟩
  have valids : ∀ {field}, Acceptable state event.time field → ∀ value ∈ field, validTime value := by
    intro _ acceptable value mem
    rcases acceptable value mem with ⟨_,old⟩ | rfl
    · exact old
    exact timely.valid
  have notQuiet : ¬(state.category = .verified ∨ state.category = .disabled) := by
    intro kind
    have quiet := (valid.quiet kind).unhealthy
    rw [unhealthy] at quiet
    cases quiet
  exact { valid with
    quiet := fun kind => absurd kind notQuiet
    degraded := by
      intro status kind
      obtain ⟨start,degraded⟩ := valid.degraded status kind
      exact ⟨start,⟨degraded.unhealthy,degraded.reason,degraded.counted,degraded.observed,degraded.verified, degraded.unavailable,degraded.available⟩⟩
    counted := by simp only [reduceCtorEq,iff_false]; omega
    claimTime := times claim
    attemptTime := times attempt
    sentTime := times sending
    attempt := order
    sent := final
    actionValid := by intro time mem; cases mem; exact timely.valid
    claimedValid := valids claim
    attemptedValid := valids attempt
    sentValid := valids sending
    claims := by simp only; omega }

theorem held_ripe (timely : Timely state event) (held : Held state claimSequence since claimedAt) : alertAfterMs < event.time - since := by
  obtain ⟨action,start,known,began,late,old⟩ := valid.claimTime claimedAt held.claimed
  have ordered := timely.ordered action known
  cases held.unhealthy.symm.trans began
  omega

theorem held_counted (held : Held state claimSequence since claimedAt) : 0 < state.alertClaimSequence := by
  obtain ⟨action,_,known,_⟩ := valid.claimTime claimedAt held.claimed
  have nonzero : state.alertClaimSequence ≠ 0 := fun zero => by
    have empty := valid.counted.mp zero
    rw [known] at empty
    cases empty
  have bound := valid.claims
  omega
end

theorem acceptable_none (state : State) (time : Int) : Acceptable state time none := nofun

theorem acceptable_now (state : State) (time : Int) : Acceptable state time (some time) := by
  intro _ mem; cases mem; exact .inr rfl

theorem acceptable_attempted (valid : Consistent parseUrl state) (time : Int) : Acceptable state time state.alertAttemptedAt :=
  fun value mem => .inl ⟨valid.attemptTime value mem,valid.attemptedValid value mem⟩

theorem acceptable_claimed (valid : Consistent parseUrl state) (time : Int) : Acceptable state time state.alertClaimedAt :=
  fun value mem => .inl ⟨valid.claimTime value mem,valid.claimedValid value mem⟩

theorem attemptedSince_iff : attemptedSince state claimedAt ↔ ∃ attempted, state.alertAttemptedAt = some attempted ∧ claimedAt ≤ attempted := by
  simp [attemptedSince,any_eq_true]

theorem alert_consistent (valid : Consistent parseUrl state) (step : AlertStep state event next) : Consistent parseUrl next := by
  cases step with
  | ignored => exact valid
  | claim timely eligible =>
    obtain ⟨⟨since,unhealthy,ripe⟩,_,unsent⟩ := eligible_facts eligible
    have positive : 0 < state.alertClaimSequence + 1 := by have := valid.claims; omega
    have updated := acted_consistent valid unhealthy timely ripe positive (acceptable_now _ _) (acceptable_none _ _) (acceptable_none _ _) nofun nofun
    simpa only [claimedState,AlertEvent.time,unsent] using updated
  | reclaim timely held =>
    have positive : 0 < state.alertClaimSequence + 1 := by have := valid.claims; omega
    have updated := acted_consistent valid held.unhealthy timely (held_ripe valid timely held) positive
      (acceptable_now _ _) (acceptable_none _ _) (acceptable_none _ _) nofun nofun
    simpa only [claimedState,AlertEvent.time,held.unsent] using updated
  | attempt timely held =>
    have updated := acted_consistent valid held.unhealthy timely (held_ripe valid timely held)
      (held_counted valid held) (acceptable_claimed valid _) (acceptable_now _ _) (acceptable_none _ _)
      (by
        intro claimed known _ now
        cases now
        obtain ⟨action,_,acted,_,late,_⟩ := valid.claimTime claimed known
        exact Int.le_trans late (timely.ordered action acted))
      nofun
    simpa only [AlertEvent.time,held.unsent] using updated
  | failed timely held =>
    have updated := acted_consistent valid held.unhealthy timely (held_ripe valid timely held)
      (held_counted valid held) (acceptable_none _ _) (acceptable_attempted valid _) (acceptable_none _ _)
      nofun nofun
    simpa only [AlertEvent.time,held.unsent] using updated
  | sent timely held attempted =>
    obtain ⟨tried,known,_⟩ := attemptedSince_iff.mp attempted
    have updated := acted_consistent valid held.unhealthy timely (held_ripe valid timely held)
      (held_counted valid held) (acceptable_none _ _) (acceptable_attempted valid _) (acceptable_now _ _)
      nofun
      (by
        intro _ now
        cases now
        obtain ⟨action,_,acted,_,late,_⟩ := valid.attemptTime tried known
        exact ⟨rfl,tried,known,Int.le_trans late (timely.ordered action acted)⟩)
    simpa only [AlertEvent.time] using updated

-- What reaches the policy: observations with the identity their caller passes, and alert events. A throw persists
-- nothing.
inductive Event where
  | observe (rawIdentity : Identity) (observation : Observation)
  | alert (event : AlertEvent)

def advance (parseUrl : String → Option Url) (current : Option State) : Event → Option State
  | .observe rawIdentity observation =>
    (observeProjectAlphaApiV2Incident parseUrl current rawIdentity observation).orElse fun _ => current
  | .alert event => current.map (advanceProjectAlphaApiV2Alert · event)

def Step (parseUrl : String → Option Url) (before : Option State) (event : Event) (after : Option State) : Prop :=
  advance parseUrl before event = after

theorem advance_consistent (valid : ∀ state ∈ current, Consistent parseUrl state) (event : Event) :
    ∀ state ∈ advance parseUrl current event, Consistent parseUrl state := by
  intro state reached
  cases event with
  | alert event =>
    obtain ⟨before,here,rfl⟩ := map_eq_some_iff.mp reached
    exact alert_consistent (valid before here) (advance_follows before event)
  | observe rawIdentity observation =>
    cases observed : observeProjectAlphaApiV2Incident parseUrl current rawIdentity observation with
    | none =>
      simp only [advance,observed] at reached
      exact valid state reached
    | some =>
      simp only [advance,observed] at reached
      cases reached
      exact observe_consistent valid observed

theorem reached_consistent (path : Runs (Step parseUrl) none events (some state)) : Consistent parseUrl state := by
  have all := path.preserves (fun current => ∀ state ∈ current, Consistent parseUrl state)
    (fun before event after valid step => by cases step; exact advance_consistent valid event) (by simp)
  exact all state rfl

theorem persisted_snapshot_accepted (parseUrl : String → Option Url) (events : List Event) (state : State)
    (path : Runs (Step parseUrl) none events (some state))
    (incidents : state.incidentSequence < 9007199254740992) (claims : state.alertClaimSequence < 9007199254740992) :
    parseProjectAlphaApiV2IncidentState parseUrl (stateValue state) = some state := by
  have valid := reached_consistent path
  apply parse_value valid
  · simp only [maxSafeInteger]; omega
  · simp only [maxSafeInteger]; omega

def exampleUrl (text : String) : Option Url :=
  if text = "https://alpha.example" then some ⟨"https:","https://alpha.example"⟩ else none

def exampleIdentity : Identity :=
  ⟨"project-alpha:north","10000000-0000-4000-8000-000000000001","https://alpha.example",
    "20000000-0000-4000-8000-000000000002","30000000-0000-4000-8000-000000000003"⟩

def exampleEvents : List Event :=
  [.observe exampleIdentity (.probe 1000 (.failed .unauthorized .credentialsOrScope)), .observe exampleIdentity (.probe 2000 (.failed .unavailable .timeout)),
    .observe exampleIdentity (.disabled 1500),.alert (.claim 700000 1),.alert (.reclaim 700001 1 1),
    .alert (.attempt 700002 1 2),.alert (.sent 700003 1 2)]

def exampleState : State :=
  ⟨exampleIdentity,.failure .unavailable,some .timeout,2000,some 700003,none,1,some 1000,some 2000,none,2, some 700002,some 700003⟩

theorem persisted_snapshot_accepted_sent : parseProjectAlphaApiV2IncidentState exampleUrl (stateValue exampleState) = some exampleState := by
  have ran : exampleEvents.foldl (advance exampleUrl) none = some exampleState := by decide +kernel
  have path := Runs.fold (advance exampleUrl) none exampleEvents
  exact persisted_snapshot_accepted exampleUrl exampleEvents exampleState path (by decide) (by decide)
end LedgeTopOps.IncidentInvariant
