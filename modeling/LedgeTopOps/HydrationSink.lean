import LedgeTopOps.LittleEndian
import LedgeTopOps.StepRuns

namespace LedgeTopOps.HydrationSink
open LittleEndian StepRuns

structure CloudFilesOperationContext where
  (connectionKey transferKey requestKey fileSize requiredOffset requiredLength : Int)
  deriving DecidableEq

-- HydrateForCallbackAsync's refusal, with the heartbeat in milliseconds.
def unsupported (identityLength heartbeatInterval : Int) (context : CloudFilesOperationContext) : Bool :=
  decide (context.fileSize ≠ identityLength) || decide (context.requiredOffset < 0) || decide (context.requiredLength ≤ 0)
    || decide (context.requiredOffset > context.fileSize)
    || decide (context.requiredLength > context.fileSize-context.requiredOffset)
    || decide (context.requiredOffset.tmod 4096 ≠ 0)
    || (decide (context.requiredLength.tmod 4096 ≠ 0)
      && decide (context.requiredLength ≠ context.fileSize-context.requiredOffset))
    || decide (heartbeatInterval ≤ 0) || decide (heartbeatInterval ≥ 60000)

structure Accepted where
  context : CloudFilesOperationContext
  (size start length : Nat)
  fileSize : context.fileSize = size
  requiredOffset : context.requiredOffset = start
  requiredLength : context.requiredLength = length
  positive : 0 < length
  inside : start+length ≤ size
  aligned : start%4096 = 0
  whole : length%4096 = 0 ∨ start+length = size

def Accepted.stop (accepted : Accepted) : Nat := accepted.start+accepted.length

def accept (identityLength heartbeatInterval : Int) (context : CloudFilesOperationContext) : Option Accepted :=
  if supported : unsupported identityLength heartbeatInterval context = false then
    some {
      context := context
      size := context.fileSize.toNat
      start := context.requiredOffset.toNat
      length := context.requiredLength.toNat
      fileSize := by simp [unsupported] at supported; omega
      requiredOffset := by simp [unsupported] at supported; omega
      requiredLength := by simp [unsupported] at supported; omega
      positive := by simp [unsupported] at supported; omega
      inside := by simp [unsupported] at supported; omega
      aligned := by
        simp [unsupported] at supported
        have same : context.requiredOffset.tmod 4096 = context.requiredOffset % 4096 := Int.tmod_eq_emod_of_nonneg (by omega)
        omega
      whole := by
        simp [unsupported] at supported
        have same : context.requiredLength.tmod 4096 = context.requiredLength % 4096 := Int.tmod_eq_emod_of_nonneg (by omega)
        omega }
  else none

def unavailable : Int := -0x3fff30ee
def cancelledStatus : Int := -0x3fff30e5

inductive Native where
  | progress (connectionKey transferKey total completed : Int) (succeeded : Bool)
  | execute (connectionKey transferKey requestKey : Int) (status : Int) (offset length : Nat) (buffer : Option Bytes)
      (succeeded : Bool)
  deriving DecidableEq

structure Sink where
  next : Nat
  (terminal progressFailed committed progressStopped operationCancelled callerCancelled : Bool)
  deriving DecidableEq

inductive Pump where
  | absent
  | delaying
  | awake
  | reporting
  | failing
  | cancelling
  | ended
  deriving DecidableEq

inductive Caller where
  | coordinator
  | callback
  deriving DecidableEq

-- The request's own task between its atomic steps. A transfer keeps its
-- position in the verified file and what is left to write.
inductive Main where
  | starting
  | preparing
  | transferring (position remaining : Nat)
  | calling (offset : Nat) (bytes : Bytes) (remaining : Nat)
  | joining (offset : Nat) (bytes : Bytes) (remaining : Nat)
  | checking (offset : Nat) (bytes : Bytes) (remaining : Nat)
  | writing (offset : Nat) (bytes : Bytes) (remaining : Nat)
  | completing
  | completeJoining
  | completeChecking
  | completeLocking
  | failing (caller : Caller) (cancelled : Bool)
  | failJoining (caller : Caller) (cancelled : Bool)
  | failLocking (caller : Caller) (cancelled : Bool)
  | finishing
  | stopping
  | done
  deriving DecidableEq

structure World where
  sink : Sink
  pump : Pump
  main : Main
  calls : List Native
  deriving DecidableEq

def initial (accepted : Accepted) : World :=
  ⟨⟨accepted.start,false,false,false,false,false,false⟩,.absent,.starting,[]⟩

def joined : Pump → Bool
  | .absent => true
  | .ended => true
  | _ => false

def invalidRange (accepted : Accepted) (sink : Sink) (offset : Nat) (bytes : Bytes) : Bool :=
  decide (offset ≠ sink.next) || decide (bytes.length = 0) || decide (bytes.length > 65536)
    || decide (sink.next+bytes.length > accepted.stop) || decide (offset%4096 ≠ 0)
    || (decide (bytes.length%4096 ≠ 0) && decide (offset+bytes.length ≠ accepted.size))

def isFinal (accepted : Accepted) (sink : Sink) (bytes : Bytes) : Bool := decide (sink.next+bytes.length = accepted.stop)

def progressCall (accepted : Accepted) (succeeded : Bool) : Native :=
  .progress accepted.context.connectionKey accepted.context.transferKey 1 0 succeeded

def executeCall (accepted : Accepted) (status : Int) (offset length : Nat) (bytes : Bytes) (succeeded : Bool) : Native :=
  .execute accepted.context.connectionKey accepted.context.transferKey accepted.context.requestKey status offset length
    (if status = 0 then some bytes else none) succeeded

def raised (cancelled : Bool) (world : World) : World := { world with main := .failing .coordinator cancelled }

-- The locked section of Report, shared by StartProgress and the pump.
def report (accepted : Accepted) (succeeded : Bool) (world : World) : Bool × World :=
  if world.sink.terminal then (false,world)
  else (succeeded,{ world with calls := world.calls++[progressCall accepted succeeded] })

inductive Outcome where
  | succeeds
  | fails
  | cancels
  deriving DecidableEq

-- One atomic step of the request's task. `none` is a task that waits.
def mainStep (accepted : Accepted) (file : Bytes) (outcome : Outcome) (world : World) : Option World :=
  let sink := world.sink
  match world.main with
  | .starting =>
    -- StartProgress: an exception here never reaches the coordinator.
    if sink.operationCancelled then some { world with main := .failing .callback sink.callerCancelled }
    else
      let (reported,after) := report accepted (outcome = .succeeds) world
      if reported then some { after with pump := .delaying, main := .preparing }
      else some { after with main := .failing .callback sink.callerCancelled }
  | .preparing =>
    -- Authorization, download and verification, with any result.
    match outcome with
    | .succeeds => some { world with main := .transferring accepted.start accepted.length }
    | .fails => some (raised false world)
    | .cancels => some (raised true world)
  | .transferring position remaining =>
    if remaining = 0 then
      if sink.operationCancelled then some (raised true world) else some { world with main := .completing }
    else if sink.operationCancelled then some (raised true world)
    else
      let count := min 65536 remaining
      let bytes := slice position count file
      match outcome with
      | .succeeds =>
        if bytes.length = count then some { world with main := .calling (position+count-count) bytes remaining }
        else some (raised false world)
      | .fails => some (raised false world)
      | .cancels => some (raised true world)
  | .calling offset bytes remaining =>
    if invalidRange accepted sink offset bytes then some (raised false world)
    else if isFinal accepted sink bytes then
      some { world with sink := { sink with progressStopped := true }, main := .joining offset bytes remaining }
    else some { world with main := .checking offset bytes remaining }
  | .joining offset bytes remaining =>
    if joined world.pump then some { world with main := .checking offset bytes remaining } else none
  | .checking offset bytes remaining =>
    if sink.operationCancelled then some (raised true world) else some { world with main := .writing offset bytes remaining }
  | .writing offset bytes remaining =>
    -- The locked section: the native call and the bookkeeping after it.
    if sink.terminal || sink.progressFailed then some (raised false world)
    else
      let called := world.calls++[executeCall accepted 0 offset bytes.length bytes (outcome = .succeeds)]
      if outcome = .succeeds then
        let last := isFinal accepted sink bytes
        some { world with
          sink := { sink with
            next := sink.next+bytes.length
            committed := sink.committed || last
            terminal := sink.terminal || last }
          calls := called
          main := .transferring (offset+bytes.length) (remaining-bytes.length) }
      else some (raised false { world with calls := called })
  | .completing => some { world with sink := { sink with progressStopped := true }, main := .completeJoining }
  | .completeJoining =>
    if joined world.pump then
      if sink.committed then some { world with main := .stopping } else some { world with main := .completeChecking }
    else none
  | .completeChecking =>
    -- From here on an exception finds `completed` set.
    if sink.operationCancelled then some { world with main := .failing .callback sink.callerCancelled }
    else some { world with main := .completeLocking }
  | .completeLocking =>
    if sink.terminal || sink.progressFailed || decide (sink.next ≠ accepted.stop) then
      some { world with main := .failing .callback sink.callerCancelled }
    else some { world with sink := { sink with terminal := true }, main := .stopping }
  | .failing caller cancelled =>
    some { world with sink := { sink with progressStopped := true }, main := .failJoining caller cancelled }
  | .failJoining caller cancelled =>
    if joined world.pump then some { world with main := .failLocking caller cancelled } else none
  | .failLocking caller cancelled =>
    let after := if sink.terminal then world else
      { world with
        sink := { sink with terminal := true }
        calls := world.calls++[executeCall accepted
          (if cancelled && sink.callerCancelled then cancelledStatus else unavailable)
          accepted.start accepted.length [] (outcome = .succeeds)] }
    match caller with
    | .coordinator => some { after with main := .failing .callback sink.callerCancelled }
    | .callback => some { after with main := .finishing }
  | .finishing => some { world with main := .stopping }
  | .stopping => some { world with sink := { sink with progressStopped := true }, main := .done }
  | .done => none

def pumpStep (accepted : Accepted) (outcome : Outcome) (world : World) : Option World :=
  match world.pump with
  | .delaying => match outcome with
    | .succeeds => some { world with pump := .awake }
    | _ => if world.sink.progressStopped then some { world with pump := .ended } else none
  | .awake =>
    if world.sink.progressStopped then some { world with pump := .ended } else some { world with pump := .reporting }
  | .reporting =>
    let (reported,after) := report accepted (outcome = .succeeds) world
    if reported then some { after with pump := .delaying } else some { after with pump := .failing }
  | .failing => some { world with sink := { world.sink with progressFailed := true }, pump := .cancelling }
  | .cancelling => some { world with sink := { world.sink with operationCancelled := true }, pump := .ended }
  | .absent => none
  | .ended => none

inductive Event where
  | main (outcome : Outcome)
  | pump (outcome : Outcome)
  | cancel
  | linked

-- The two tasks and the caller's cancellation, which reaches the linked token
-- in a step of its own.
def advance (accepted : Accepted) (file : Bytes) (world : World) : Event → Option World
  | .main outcome => mainStep accepted file outcome world
  | .pump outcome => pumpStep accepted outcome world
  | .cancel => some { world with sink := { world.sink with callerCancelled := true } }
  | .linked =>
    if world.sink.callerCancelled then some { world with sink := { world.sink with operationCancelled := true } } else none

def Step (accepted : Accepted) (file : Bytes) (before : World) (event : Event) (after : World) : Prop :=
  advance accepted file before event = some after
end LedgeTopOps.HydrationSink
