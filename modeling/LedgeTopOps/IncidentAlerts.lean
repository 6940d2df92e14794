import LedgeTopOps.IncidentInvariant

namespace LedgeTopOps.IncidentAlerts
open IncidentPolicy IncidentInvariant StepRuns

abbrev Taken := Transition (Option State) Event

-- The transition that sets alertSentAt from null to a time.
def Sends (taken : Taken) : Prop :=
  ∃ before after, taken.before = some before ∧ taken.after = some after ∧
    before.alertSentAt = none ∧ after.alertSentAt ≠ none

def Claims (taken : Taken) : Prop :=
  ∃ before after, taken.before = some before ∧ taken.after = some after ∧
    before.alertClaimSequence ≠ after.alertClaimSequence

def ClaimsAs (claimSequence : Int) (taken : Taken) : Prop :=
  Claims taken ∧ taken.after.map State.alertClaimSequence = some claimSequence

def Attempts (claimSequence : Int) (taken : Taken) : Prop :=
  ∃ time incident before, taken.event = .alert (.attempt time incident claimSequence) ∧
    taken.before = some before ∧ claimSequence = before.alertClaimSequence ∧
    taken.after = some { before with lastAlertActionAt := some time, alertAttemptedAt := some time }

def Restores (taken : Taken) : Prop :=
  ∃ rawIdentity observation after, taken.event = .observe rawIdentity observation ∧ taken.after = some after ∧
    taken.before ≠ taken.after ∧ (after.category = .verified ∨ after.category = .disabled)

def Opens (since : Int) (taken : Taken) : Prop :=
  ∃ rawIdentity observation after, taken.event = .observe rawIdentity observation ∧
    observation.startedAt = since ∧ taken.before.bind State.unhealthySince = none ∧
    taken.after = some after ∧ after.unhealthySince = some since

def eventTime : Event → Option Int
  | .observe _ _ => none
  | .alert event => some event.time

inductive Effect (before : Option State) (startedAt : Int) (after : State) : Prop where
  | restored (healthy : after.category = .verified ∨ after.category = .disabled)
      (unhealthy : after.unhealthySince = none) (claimed : after.alertClaimedAt = none)
      (sent : after.alertSentAt = none)
      (incident : after.incidentSequence = (before.map State.incidentSequence).getD 0)
  | continued (state : State) (here : before = some state) (running : state.unhealthySince ≠ none)
      (unhealthy : after.unhealthySince = state.unhealthySince) (claimed : after.alertClaimedAt = state.alertClaimedAt)
      (attempted : after.alertAttemptedAt = state.alertAttemptedAt) (sent : after.alertSentAt = state.alertSentAt)
      (incident : after.incidentSequence = state.incidentSequence)
      (unwell : ¬(after.category = .verified ∨ after.category = .disabled))
  | opened (healthy : before.bind State.unhealthySince = none) (unhealthy : after.unhealthySince = some startedAt)
      (claimed : after.alertClaimedAt = none) (sent : after.alertSentAt = none)
      (incident : after.incidentSequence = (before.map State.incidentSequence).getD 0 + 1)

section
variable (before : Option State) (identity : Identity)
include before identity

theorem failure_effect (startedAt : Int) (status : FailureStatus) (reason : FailureReason) :
    Effect before startedAt (failureObservation before identity startedAt status reason) := by
  cases running : before.bind State.unhealthySince with
  | none =>
    exact .opened running (by simp [failureObservation,running]) (by simp [failureObservation,running])
      (by simp [failureObservation,running]) (by simp [failureObservation,running,observationBase])
  | some =>
    obtain ⟨state,rfl,unhealthy⟩ := Option.bind_eq_some_iff.mp running
    exact .continued state rfl (by simp [unhealthy]) (by simp [failureObservation,unhealthy])
      (by simp [failureObservation,unhealthy]) (by simp [failureObservation,unhealthy])
      (by simp [failureObservation,unhealthy]) (by simp [failureObservation,unhealthy,observationBase])
      (by simp [failureObservation])

theorem apply_effect (observation : Observation) : Effect before observation.startedAt (applyObservation before identity observation) := by
  cases observation with
  | disabled => exact .restored (.inr rfl) rfl rfl rfl rfl
  | probe startedAt probe => cases probe with
    | failed status reason => exact failure_effect before identity startedAt status reason
    | verified =>
      simp only [applyObservation]
      split
      · exact .restored (.inl rfl) rfl rfl rfl rfl
      exact failure_effect before identity startedAt _ _

theorem apply_claims (observation : Observation) :
    (applyObservation before identity observation).alertClaimSequence = (before.map State.alertClaimSequence).getD 0 := by
  cases observation with
  | disabled => rfl
  | probe _ probe => cases probe with
    | failed => rfl
    | verified =>
      simp only [applyObservation]
      split <;> rfl
end

inductive Moved : Option State → Event → Option State → Prop where
  | still : Moved before event before
  | observed (effect : Effect before observation.startedAt after)
      (claims : after.alertClaimSequence = (before.map State.alertClaimSequence).getD 0) :
      Moved before (.observe rawIdentity observation) (some after)
  | acted (step : AlertStep before event after) : Moved (some before) (.alert event) (some after)

theorem step_moved (step : Step parseUrl before event after) : Moved before event after := by
  cases step
  cases event with
  | alert event => cases before with
    | none => exact .still
    | some state => exact .acted (advance_follows state event)
  | observe rawIdentity observation =>
    cases observed : observeProjectAlphaApiV2Incident parseUrl before rawIdentity observation with
    | none => simp only [advance,observed]; exact .still
    | some =>
      simp only [advance,observed]
      rcases observe_follows observed with rfl | ⟨identity,_,_,_,rfl⟩
      · exact .still
      exact .observed (apply_effect before identity observation) (apply_claims before identity observation)

theorem still_claims (taken : Taken) (same : taken.before = taken.after) : ¬Claims taken := by
  rintro ⟨_,_,left,right,moved⟩
  rw [left,right] at same
  cases same
  exact moved rfl

theorem observed_claims (effect : after.alertClaimSequence = (before.map State.alertClaimSequence).getD 0) : ¬Claims ⟨before,event,some after⟩ := by
  rintro ⟨_,_,here,there,moved⟩
  cases here
  cases there
  exact moved effect.symm

def OpenedSince (history : List Taken) (since : Int) : Prop :=
  Since (Opens since) (fun rest => ∀ taken ∈ rest, ¬Restores taken) history

def ClaimedSince (history : List Taken) (claimSequence : Int) (attempted : Prop) : Prop :=
  Since (ClaimsAs claimSequence) (fun rest => (∀ taken ∈ rest, ¬Claims taken) ∧
    (attempted → ∃ taken ∈ rest, Attempts claimSequence taken)) history

structure Accounted (history : List Taken) (current : Option State) : Prop where
  opened : ∀ state ∈ current, ∀ since ∈ state.unhealthySince, OpenedSince history since
  claimed : ∀ state ∈ current, ∀ claimedAt ∈ state.alertClaimedAt,
    ClaimedSince history state.alertClaimSequence (state.alertAttemptedAt ≠ none)
  sent : ∀ taken ∈ history, Sends taken → ∃ state, current = some state ∧
    ∃ incident, taken.before.map State.incidentSequence = some incident ∧ incident ≤ state.incidentSequence ∧
      (incident = state.incidentSequence → state.alertSentAt ≠ none ∨ state.unhealthySince = none)

theorem ClaimedSince.later (before : ClaimedSince history claimSequence attempted) (quiet : ¬Claims last)
    (known : tried → attempted ∨ Attempts claimSequence last) : ClaimedSince (history++[last]) claimSequence tried := by
  apply Since.later before
  rintro _ ⟨none',recorded⟩
  refine ⟨?_,?_⟩
  · intro taken mem
    rcases List.mem_append.mp mem with old | new
    · exact none' taken old
    cases List.mem_singleton.mp new; exact quiet
  intro now
  rcases known now with old | new
  · obtain ⟨taken,mem,attempt⟩ := recorded old
    exact ⟨taken,List.mem_append_left _ mem,attempt⟩
  exact ⟨last,by simp,new⟩

theorem acted_opened (step : AlertStep before event after) :
    after.unhealthySince = before.unhealthySince ∧ after.incidentSequence = before.incidentSequence := by
  cases step <;> exact ⟨rfl,rfl⟩

theorem acted_restores : ¬Restores ⟨before,.alert event,after⟩ := by
  rintro ⟨_,_,_,same,_⟩
  cases same

theorem acted_sends (step : AlertStep before event after) (sends : Sends ⟨some before,.alert event,some after⟩) :
    ∃ time incident claimSequence since claimedAt, event = .sent time incident claimSequence ∧
      Held before claimSequence since claimedAt ∧ attemptedSince before claimedAt ∧
      after = { before with lastAlertActionAt := some time, alertClaimedAt := none, alertSentAt := some time } := by
  obtain ⟨_,_,here,there,unsent,sent⟩ := sends
  cases here
  cases there
  cases step with
  | ignored | claim timely eligible | reclaim timely held | attempt timely held | failed timely held attempted => exact absurd unsent sent
  | sent _ held attempted => exact ⟨_,_,_,_,_,rfl,held,attempted,rfl⟩

theorem observed_sends (effect : Effect before startedAt after) : ¬Sends ⟨before,.observe rawIdentity observation,some after⟩ := by
  rintro ⟨_,_,here,there,unsent,sent⟩
  cases here
  cases there
  cases effect with
  | restored _ _ _ empty | opened _ _ _ empty => exact sent empty
  | continued _ same _ _ _ _ kept =>
    cases same
    exact sent (kept.trans unsent)

section
variable (accounted : Accounted history (some before)) (step : AlertStep before event after)
include accounted step

theorem acted_claimed : ∀ claimedAt ∈ after.alertClaimedAt, ClaimedSince (history++[⟨some before,.alert event,some after⟩])
      after.alertClaimSequence (after.alertAttemptedAt ≠ none) := by
  intro claimedAt mem
  have old := accounted.claimed before rfl
  cases step with
  | ignored => exact (old claimedAt mem).later (still_claims _ rfl) .inl
  | claim | reclaim =>
    refine Since.now ⟨⟨_,_,rfl,rfl,?_⟩,rfl⟩ ⟨by simp,fun tried => absurd rfl tried⟩
    simp only [claimedState]; omega
  | attempt _ held =>
    refine (old _ held.claimed).later (observed_claims rfl) fun _ => .inr ?_
    exact ⟨_,_,_,by rw [held.holder],rfl,rfl,rfl⟩
  | failed | sent => cases mem

theorem acted_accounted : Accounted (history++[⟨some before,.alert event,some after⟩]) (some after) := by
  have kept := acted_opened step
  refine ⟨?_,?_,?_⟩
  · intro _ here since mem
    cases here
    exact (accounted.opened before rfl since (kept.1 ▸ mem)).unbroken acted_restores
  · intro _ here claimedAt mem
    cases here
    exact acted_claimed accounted step claimedAt mem
  intro taken mem sends
  refine ⟨after,rfl,?_⟩
  rcases mem_snoc.mp mem with old | rfl
  · obtain ⟨_,here,incident,known,bound,spent⟩ := accounted.sent taken old sends
    cases here
    refine ⟨incident,known,kept.2 ▸ bound,fun same => ?_⟩
    rcases spent (same.trans kept.2) with sent | healthy
    · refine .inl fun empty => ?_
      cases step with
      | ignored | claim timely eligible | reclaim timely held | attempt timely held | failed timely held attempted => exact sent empty
      | sent => cases empty
    exact .inr (kept.1.trans healthy)
  obtain ⟨_,_,_,_,_,_,_,_,rfl⟩ := acted_sends step sends
  exact ⟨before.incidentSequence,rfl,Int.le_refl _,fun _ => .inl (Option.some_ne_none _)⟩
end

theorem observed_accounted (accounted : Accounted history before) (effect : Effect before observation.startedAt after)
    (claims : after.alertClaimSequence = (before.map State.alertClaimSequence).getD 0) :
    Accounted (history++[⟨before,.observe rawIdentity observation,some after⟩]) (some after) := by
  have noClaim : ¬Claims ⟨before,.observe rawIdentity observation,some after⟩ := observed_claims claims
  have noSend : ¬Sends ⟨before,.observe rawIdentity observation,some after⟩ := observed_sends effect
  refine ⟨?_,?_,?_⟩
  · intro state here since mem
    cases here
    cases effect with
    | restored _ unhealthy => cases unhealthy.symm.trans mem
    | opened healthy unhealthy =>
      cases unhealthy.symm.trans mem
      exact Since.now ⟨rawIdentity,observation,_,rfl,rfl,healthy,rfl,unhealthy⟩ (by simp)
    | continued state same _ unhealthy _ _ _ _ unwell =>
      cases same
      refine (accounted.opened state rfl since (unhealthy ▸ mem)).unbroken ?_
      rintro ⟨_,_,_,_,there,_,well⟩
      cases there
      exact unwell well
  · intro state here claimedAt mem
    cases here
    cases effect with
    | restored _ _ claimed | opened _ _ claimed => cases claimed.symm.trans mem
    | continued state same _ _ claimed attempted =>
      cases same
      have old := accounted.claimed state rfl claimedAt (claimed ▸ mem)
      rw [claims,attempted]
      exact old.later noClaim .inl
  intro taken mem sends
  refine ⟨after,rfl,?_⟩
  rcases mem_snoc.mp mem with old | rfl
  · obtain ⟨state,rfl,incident,known,bound,spent⟩ := accounted.sent taken old sends
    cases effect with
    | restored _ unhealthy _ _ number =>
      exact ⟨incident,known,number ▸ bound,fun _ => .inr unhealthy⟩
    | opened _ _ _ _ number =>
      simp only [Option.map_some,Option.getD_some] at number
      exact ⟨incident,known,by omega,fun same => by omega⟩
    | continued _ same _ unhealthy _ _ sent number =>
      cases same
      refine ⟨incident,known,number ▸ bound,fun same => ?_⟩
      rw [sent,unhealthy]
      exact spent (same.trans number)
  exact absurd sends noSend

theorem still_accounted (accounted : Accounted history current) (event : Event) : Accounted (history++[⟨current,event,current⟩]) current := by
  have noClaim := still_claims (⟨current,event,current⟩ : Taken) rfl
  refine ⟨?_,?_,?_⟩
  · intro state here since mem
    refine (accounted.opened state here since mem).unbroken ?_
    rintro ⟨_,_,_,_,_,changed,_⟩
    exact changed rfl
  · intro state here claimedAt mem
    exact (accounted.claimed state here claimedAt mem).later noClaim .inl
  intro taken mem sends
  rcases mem_snoc.mp mem with old | rfl
  · exact accounted.sent taken old sends
  obtain ⟨_,_,here,there,unsent,sent⟩ := sends
  cases here.symm.trans there
  exact absurd unsent sent

theorem step_accounted (accounted : Accounted history before) (step : Step parseUrl before event after) :
    Accounted (history++[⟨before,event,after⟩]) after := by
  cases step_moved step with
  | still => exact still_accounted accounted event
  | observed effect claims => exact observed_accounted accounted effect claims
  | acted action => exact acted_accounted accounted action

theorem runs_accounted (path : Runs (Recorded (Step parseUrl)) none history final) : Accounted history final := by
  refine path.preserves_history Accounted ?_ ⟨by simp,by simp,by simp⟩
  rintro _ _ ⟨_,_,_⟩ _ accounted ⟨rfl,rfl,step⟩
  exact step_accounted accounted step

-- A send is the holder's: it presents the current claim sequence, after an
-- attempt that the same holder recorded since the claim was taken.
def SentByHolder (earlier : List Taken) (taken : Taken) : Prop :=
  ∃ time incident claimSequence before, taken.event = .alert (.sent time incident claimSequence) ∧
    taken.before = some before ∧ claimSequence = before.alertClaimSequence ∧
    ClaimedSince earlier claimSequence True

-- A claim comes more than ten minutes after the observation that began the
-- unhealthy period, with no verified or disabled observation in between.
def ClaimedLate (earlier : List Taken) (taken : Taken) : Prop :=
  ∃ event before since, taken.event = .alert event ∧ taken.before = some before ∧
    before.unhealthySince = some since ∧ event.time - since > 600000 ∧ OpenedSince earlier since

theorem sends_held (moved : Moved before event after) (sends : Sends ⟨before,event,after⟩) :
    ∃ state time incident claimSequence since claimedAt, before = some state ∧
      event = .alert (.sent time incident claimSequence) ∧ Held state claimSequence since claimedAt ∧ attemptedSince state claimedAt := by
  cases moved with
  | still =>
    obtain ⟨_,_,here,there,unsent,sent⟩ := sends
    cases here.symm.trans there
    exact absurd unsent sent
  | observed effect => exact absurd sends (observed_sends effect)
  | acted step =>
    obtain ⟨time,incident,claimSequence,since,claimedAt,rfl,held,attempted,_⟩ := acted_sends step sends
    exact ⟨_,time,incident,claimSequence,since,claimedAt,rfl,rfl,held,attempted⟩

theorem claims_ripe (valid : ∀ state ∈ before, Consistent parseUrl state) (moved : Moved before event after) (claims : Claims ⟨before,event,after⟩) :
    ∃ action state since, event = .alert action ∧ before = some state ∧ state.unhealthySince = some since ∧ alertAfterMs < action.time - since := by
  cases moved with
  | still => exact absurd claims (still_claims _ rfl)
  | observed _ same => exact absurd claims (observed_claims same)
  | acted step =>
    obtain ⟨_,_,here,there,changed⟩ := claims
    cases here
    cases there
    cases step with
    | ignored | attempt timely held | failed timely held attempted | sent timely held attempted => exact absurd rfl changed
    | claim _ eligible =>
      obtain ⟨⟨since,unhealthy,ripe⟩,_,_⟩ := eligible_facts eligible
      exact ⟨_,_,since,rfl,rfl,unhealthy,ripe⟩
    | reclaim timely held =>
      exact ⟨_,_,_,rfl,rfl,held.unhealthy,held_ripe (valid _ rfl) timely held⟩

def Distinct (first second : Taken) : Prop :=
  Sends first → Sends second → first.before.map State.incidentSequence ≠ second.before.map State.incidentSequence

theorem runs_distinct (path : Runs (Recorded (Step parseUrl)) none history final) : history.Pairwise Distinct := by
  have both := path.preserves_history (fun history current => Accounted history current ∧ history.Pairwise Distinct) ?_ ⟨⟨by simp,by simp,by simp⟩,.nil⟩
  · exact both.2
  rintro _ _ ⟨_,_,_⟩ _ ⟨accounted,distinct⟩ ⟨rfl,rfl,step⟩
  refine ⟨step_accounted accounted step,List.pairwise_append.mpr ⟨distinct,List.pairwise_singleton _ _,?_⟩⟩
  intro first old _ new sentOnce sentAgain same
  cases List.mem_singleton.mp new
  obtain ⟨state,_,_,_,_,_,rfl,rfl,held,_⟩ := sends_held (step_moved step) sentAgain
  obtain ⟨_,here,number,known,_,spent⟩ := accounted.sent first old sentOnce
  cases here
  have equal : number = state.incidentSequence := by
    rw [known] at same
    exact Option.some.inj same
  rcases spent equal with sent | healthy
  · exact sent held.unsent
  cases healthy.symm.trans held.unhealthy

theorem one_alert_per_incident (parseUrl : String → Option Url) (history : List Taken) (final : Option State)
    (path : Runs (Recorded (Step parseUrl)) none history final) : history.Pairwise Distinct ∧ ∀ earlier taken later, history = earlier++taken :: later →
        (Sends taken → SentByHolder earlier taken) ∧ (Claims taken → ClaimedLate earlier taken) := by
  refine ⟨runs_distinct path,?_⟩
  rintro earlier ⟨before,event,after⟩ later split
  obtain ⟨prior,step⟩ := path.reached split
  have accounted := runs_accounted prior
  have moved := step_moved step
  constructor
  · intro sends
    obtain ⟨state,time,incident,claimSequence,_,claimedAt,rfl,rfl,held,attempted⟩ := sends_held moved sends
    refine ⟨time,incident,claimSequence,state,rfl,rfl,held.holder,?_⟩
    obtain ⟨_,known,_⟩ := attemptedSince_iff.mp attempted
    have claimed := accounted.claimed state rfl claimedAt held.claimed
    rw [held.holder]
    obtain ⟨front,mark,rest,same,marked,quiet,recorded⟩ := claimed
    exact ⟨front,mark,rest,same,marked,quiet,fun _ => recorded (by simp [known])⟩
  intro claims
  have valid : ∀ state ∈ before, Consistent parseUrl state := by
    rintro _ rfl
    exact reached_consistent prior.events
  obtain ⟨action,state,since,rfl,rfl,unhealthy,ripe⟩ := claims_ripe valid moved claims
  exact ⟨action,state,since,rfl,rfl,unhealthy,ripe,accounted.opened state rfl since unhealthy⟩

theorem one_alert_per_incident_example :
    let history := trace (advance exampleUrl) none exampleEvents
    history.Pairwise Distinct ∧ ∀ earlier taken later, history = earlier++taken :: later →
      (Sends taken → SentByHolder earlier taken) ∧ (Claims taken → ClaimedLate earlier taken) :=
  one_alert_per_incident exampleUrl _ _ (Runs.recorded (advance exampleUrl) none exampleEvents)
end LedgeTopOps.IncidentAlerts
