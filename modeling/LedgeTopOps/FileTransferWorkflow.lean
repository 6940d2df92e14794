import LedgeTopOps.FileTransfers

namespace LedgeTopOps.FileTransfers

-- The workflow between its calls. What a step's body returned is kept under the step's name once recorded; until then
-- the body may run again. A restarted workflow begins at its first line.
structure Attempt (σ : Type) where
  item : Item σ
  number : Nat
  rest : List (Item σ)

inductive StepName where
  | snapshotSelection
  | persistSelection
  | transfer (ordinal number : Nat)
  | finalizeJob

inductive Body (σ : Type) where
  | snapshot
  | persist (sources : List σ)
  | transfer (attempt : Attempt σ)
  | finalize

inductive Settled (σ : Type) where
  | snapshot (sources : List σ)
  | persist (sources : List σ)
  | transfer (attempt : Attempt σ) (terminal : Bool)
  | finalize

def Settled.body : Settled σ → Body σ
  | .snapshot _ => .snapshot
  | .persist sources => .persist sources
  | .transfer attempt _ => .transfer attempt
  | .finalize => .finalize

inductive Pc (σ π ε : Type) where
  | start
  | credential (listing : Bool)
  | snapshot
  | persist (sources : List σ)
  | resume
  | list
  | check (item : Item σ) (rest : List (Item σ))
  | share (item : Item σ) (rest : List (Item σ))
  | stop
  | mark (attempt : Attempt σ)
  | reread (attempt : Attempt σ)
  | work (attempt : Attempt σ) (current : Item σ) (place : π)
  | result (attempt : Attempt σ) (current : Item σ) (skipped : Bool)
  | failure (attempt : Attempt σ) (current : Item σ) (error : ε)
  | wait (attempt : Attempt σ)
  | finalize
  | judge (job : Job)
  | verdict (status : JobStatus)
  | revoke
  | settled (outcome : Settled σ)
  | thrown (body : Body σ)
  | caught
  | ended
  | retry
  | renew
  | reopen
  | create
  | answered

structure Cache (σ : Type) where
  snapshot : Option (List σ) := none
  persisted : Bool := false
  transfers : List ((Nat × Nat) × Bool) := []
  finalized : Bool := false

structure Flow (σ π ε : Type) where
  pc : Pc σ π ε
  cache : Cache σ := {}

inductive Reply (σ δ ρ : Type) where
  | ok
  | failed (committed : Bool) (error : δ)
  | sources (found : List σ)
  | active (yes : Bool)
  | moved (answer : ρ)

structure World (σ ω π ε : Type) where
  tables : Tables σ
  store : ω
  flows : List (Flow σ π ε)

section
variable {σ ω π ε δ ρ χ : Type} (options : Options) (mover : Mover σ ω π ε δ ρ χ)

def Cache.outcome (cache : Cache σ) (ordinal number : Nat) : Option Bool :=
  (cache.transfers.find? fun entry => entry.1 = (ordinal,number)).map Prod.snd

def Body.enter : Body σ → Pc σ π ε
  | .snapshot => .snapshot
  | .persist sources => .persist sources
  | .transfer attempt => .mark attempt
  | .finalize => .finalize

-- `step.do`: a step whose outcome is kept is not executed.
def enterFinalize (cache : Cache σ) : Pc σ π ε := if cache.finalized then .ended else .finalize

def visit (cache : Cache σ) : List (Item σ) → Pc σ π ε
  | [] => enterFinalize cache
  | item :: rest => if item.status.waiting then .check item rest else visit cache rest

def enterAttempt (cache : Cache σ) (attempt : Attempt σ) : Pc σ π ε :=
  if attempt.number < 4 then
    match cache.outcome attempt.item.ordinal attempt.number with
    | some true => visit cache attempt.rest
    | some false => .wait attempt
    | none => .mark attempt
  else visit cache attempt.rest

def enterPersist (cache : Cache σ) (sources : List σ) : Pc σ π ε :=
  if cache.persisted then .resume else .persist sources

def enterSnapshot (cache : Cache σ) : Pc σ π ε :=
  match cache.snapshot with
  | some sources => enterPersist cache sources
  | none => .snapshot

def Settled.proceed (cache : Cache σ) : Settled σ → Pc σ π ε
  | .snapshot sources => enterPersist cache sources
  | .persist _ => .resume
  | .transfer attempt terminal => if terminal then visit cache attempt.rest else .wait attempt
  | .finalize => .ended

def Settled.keep (cache : Cache σ) : Settled σ → Cache σ
  | .snapshot sources => { cache with snapshot := some sources }
  | .persist _ => { cache with persisted := true }
  | .transfer attempt terminal =>
      { cache with transfers := ((attempt.item.ordinal,attempt.number),terminal) :: cache.transfers }
  | .finalize => { cache with finalized := true }

def Pc.body : Pc σ π ε → Option (Body σ)
  | .snapshot => some .snapshot
  | .persist sources => some (.persist sources)
  | .mark attempt | .reread attempt | .work attempt _ _ | .result attempt _ _ | .failure attempt _ _ => some (.transfer attempt)
  | .finalize | .judge _ | .verdict _ | .revoke => some .finalize
  | .settled outcome => some outcome.body
  | .thrown body => some body
  | _ => none

def Pc.request : Pc σ π ε → Bool
  | .retry | .renew | .reopen | .create | .answered => true
  | _ => false

-- Where an error goes: out of a body, or into the workflow's own handler, which does
-- not cover the first read.
def Pc.throws (pc : Pc σ π ε) : Pc σ π ε :=
  match pc with
  | .start | .caught | .ended => .ended
  | .retry | .renew | .reopen | .create | .answered => .answered
  | _ => match pc.body with
    | some body => .thrown body
    | none => .caught

def statement (effect : Tables σ → Tables σ) (next throws : Pc σ π ε) (t : Tables σ) : Reply σ δ ρ → Option (Tables σ × Pc σ π ε)
  | .ok => some (effect t,next)
  | .failed committed _ => some (if committed then effect t else t,throws)
  | _ => none

def resultCall (attempt : Attempt σ) (current : Item σ) (skipped : Bool) (t : Tables σ) : Reply σ δ ρ → Option (Tables σ × Pc σ π ε)
  | .ok => some (markItemResult current skipped t,.settled (.transfer attempt true))
  | .failed committed error => some (if committed then markItemResult current skipped t else t,.failure attempt current (mover.fault error))
  | _ => none

def Pc.call (cache : Cache σ) (t : Tables σ) (pc : Pc σ π ε) (reply : Reply σ δ ρ) : Option (Tables σ × Pc σ π ε) :=
  match pc with
  | .start => statement id (if t.job.status = .queued then (if options.credentialFirst then .credential false else enterSnapshot cache) else .resume) pc.throws t reply
  | .credential listing => statement id (if listing then .list else enterSnapshot cache) pc.throws t reply
  | .snapshot => match reply with
    | .sources found => some (t,.settled (.snapshot found))
    | .failed _ _ => some (t,pc.throws)
    | _ => none
  | .persist sources => statement (replaceItems sources) (.settled (.persist sources)) pc.throws t reply
  | .resume => statement id (if t.job.status.counting then (if options.credentialFirst then .credential true else .list) else .ended) pc.throws t reply
  | .list => statement id (visit cache t.items) pc.throws t reply
  | .check item rest => statement id
      (if t.jobCancelled then .stop else if options.asksShare then .share item rest
        else enterAttempt cache ⟨item,item.attempts,rest⟩) pc.throws t reply
  | .share item rest => match reply with
    | .active yes => some (t,if yes then enterAttempt cache ⟨item,item.attempts,rest⟩ else .stop)
    | .failed _ _ => some (t,pc.throws)
    | _ => none
  | .stop => statement stopJob (enterFinalize cache) pc.throws t reply
  | .mark attempt => statement (markItemRunning attempt.item.id) (.reread attempt) pc.throws t reply
  | .reread attempt => statement id (match t.row attempt.item.id with
      | some current => .work attempt current (mover.enter current)
      | none => pc.throws) pc.throws t reply
  | .work _ _ _ => none
  | .result attempt current skipped => resultCall mover attempt current skipped t reply
  | .failure attempt current error => statement (markItemFailure current (mover.retryable error))
      (.settled (.transfer attempt (!mover.again error))) pc.throws t reply
  | .wait attempt => statement id (enterAttempt cache { attempt with number := attempt.number + 1 }) pc.throws t reply
  | .finalize => statement id (.judge t.job) pc.throws t reply
  | .judge job => statement id (.verdict (finalStatus job t.jobCancelled)) pc.throws t reply
  | .verdict status => statement (finalizeJob options.recounts status) (if options.revokes then .revoke else .settled .finalize) pc.throws t reply
  -- A revocation that fails is only logged.
  | .revoke => statement id (.settled .finalize) (.settled .finalize) t reply
  | .settled _ | .thrown _ => none
  | .caught => statement failJob .ended pc.throws t reply
  | .ended => none
  | .retry => statement id (if t.job.status = .partly || t.job.status = .failed then .renew else .answered) pc.throws t reply
  | .renew => statement renewItems (if t.items.any (·.status = .failed) then .reopen else .answered) pc.throws t reply
  | .reopen => statement reopenJob .create pc.throws t reply
  | .create => statement id .answered pc.throws t reply
  | .answered => none

def Pc.moved (cancelled : Bool) (store : ω) (pc : Pc σ π ε) (reply : Reply σ δ ρ) : Option (ω × Pc σ π ε) :=
  match pc, reply with
  | .work attempt current place, .moved answer => (mover.move cancelled store current place answer).map fun step =>
      (step.1,match step.2 with
        | .at next => .work attempt current next
        | .finished skipped => .result attempt current skipped
        | .raised error => .failure attempt current error)
  | _, _ => none

inductive Action (σ δ ρ χ : Type) where
  | reply (flow : Nat) (reply : Reply σ δ ρ)
  | record (flow : Nat)
  | again (flow : Nat)
  | giveUp (flow : Nat)
  | restart (flow : Nat)
  | cancel
  | retry
  | others (change : χ)

def World.put (w : World σ ω π ε) (index : Nat) (flow : Flow σ π ε) : World σ ω π ε :=
  { w with flows := w.flows.set index flow }

def Pc.created : Pc σ π ε → Reply σ δ ρ → List (Flow σ π ε)
  | .create, .ok => [{ pc := .start }]
  | .create, .failed true _ => [{ pc := .start }]
  | _, _ => []

def replied (w : World σ ω π ε) (index : Nat) (flow : Flow σ π ε) (reply : Reply σ δ ρ) : Option (World σ ω π ε) :=
  match flow.pc.call options mover flow.cache w.tables reply with
  | some (tables,pc) => some
      { w with tables := tables, flows := w.flows.set index { flow with pc := pc }++flow.pc.created reply }
  | none => (flow.pc.moved mover w.tables.jobCancelled w.store reply).map fun step =>
      { w with store := step.1, flows := w.flows.set index { flow with pc := step.2 } }

def next (w : World σ ω π ε) : Action σ δ ρ χ → Option (World σ ω π ε)
  | .reply index reply => (w.flows[index]?).bind fun flow => replied options mover w index flow reply
  | .record index => (w.flows[index]?).bind fun flow => match flow.pc with
    | .settled outcome => some (w.put index ⟨outcome.proceed (outcome.keep flow.cache),outcome.keep flow.cache⟩)
    | _ => none
  -- The engine executes a body again that has not been recorded.
  | .again index => (w.flows[index]?).bind fun flow => flow.pc.body.map fun body => w.put index { flow with pc := body.enter }
  | .giveUp index => (w.flows[index]?).bind fun flow => match flow.pc with
    | .thrown _ => some (w.put index { flow with pc := .caught })
    | _ => none
  | .restart index => (w.flows[index]?).bind fun flow =>
      if flow.pc.request then none else some (w.put index { flow with pc := .start })
  | .cancel => some { w with tables := requestCancellation w.tables }
  | .retry => if options.retries then some { w with flows := w.flows++[{ pc := .retry }] } else none
  | .others change => some { w with store := mover.others w.store change }
end

def initial (store : ω) : World σ ω π ε where
  tables := { job := { status := .queued }, items := [], ids := 0 }
  store := store
  flows := [{ pc := .start }]
end LedgeTopOps.FileTransfers
