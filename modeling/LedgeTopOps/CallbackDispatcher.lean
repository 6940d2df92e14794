import LedgeTopOps.HydrationSink
import LedgeTopOps.KeyedRows

namespace LedgeTopOps.CallbackDispatcher
open LittleEndian KeyedRows HydrationSink

structure CloudFilesRequestKey where
  (connectionKey transferKey requestKey : Int)
  deriving DecidableEq

def keyOf (context : CloudFilesOperationContext) : CloudFilesRequestKey :=
  ⟨context.connectionKey,context.transferKey,context.requestKey⟩

structure PlaceholderIdentity where
  (channel sourceAlias origin principalId : String)
  length : Int

-- What the dispatcher is built with. How identity bytes are decoded is left
-- open: every reading of them is covered.
structure Provider where
  (channel sourceAlias origin principal : String)
  connection : Int
  maximumRequests : Nat
  decode : Bytes → Except String PlaceholderIdentity

def ownedContext (provider : Provider) (identityBytes : Bytes) (context : CloudFilesOperationContext) :
    Except String CloudFilesOperationContext := do
  if identityBytes.length > 4096 then throw "Callback identity exceeds native bounds."
  let identity ← provider.decode identityBytes
  if identity.channel ≠ provider.channel ∨ identity.sourceAlias ≠ provider.sourceAlias ∨ identity.origin ≠ provider.origin ∨
      identity.principalId ≠ provider.principal ∨ context.connectionKey ≠ provider.connection ∨
      context.fileSize ≠ identity.length ∨ context.requiredOffset < 0 ∨ context.requiredOffset > identity.length then
    throw "Callback does not match this provider context."
  let length := if context.requiredLength = -1 then identity.length-context.requiredOffset else context.requiredLength
  if length ≤ 0 ∨ length > identity.length-context.requiredOffset ∨ context.requiredOffset.tmod 4096 ≠ 0 ∨
      (length.tmod 4096 ≠ 0 ∧ length ≠ identity.length-context.requiredOffset) then
    throw "Callback range is unsupported."
  return { context with requiredLength := length }

inductive Result where
  | succeeded
  | failed
  | cancelled
  deriving DecidableEq

inductive Phase where
  | registered
  | hydrating
  | returned (result : Result)
  | ending (result : Result)
  | observed (result : Result)
  | completed (result : Result)
  deriving DecidableEq

inductive CancelTask where
  | absent
  | running
  | finished
  deriving DecidableEq

structure Entry where
  id : Nat
  identity : Bytes
  context : CloudFilesOperationContext
  cancellationRequested : Bool
  cancelTask : CancelTask
  ended : Bool
  phase : Phase
  deriving DecidableEq

def Entry.key (entry : Entry) : CloudFilesRequestKey := keyOf entry.context

structure Registration where
  key : CloudFilesRequestKey
  entry : Nat
  deriving DecidableEq

-- A CancelFetchDataAsync call after its lock. It waits for the cancellation
-- only if RequestCancel gave it a task.
inductive CancelStage where
  | requesting
  | observing (waits : Bool)
  | completing
  deriving DecidableEq

structure CancelCall where
  (id entry : Nat)
  stage : CancelStage
  deriving DecidableEq

inductive Drain where
  | cancelling (remaining awaited all : List Nat)
  | observing (awaited all : List Nat)
  | completing (all : List Nat)
  | done
  deriving DecidableEq

inductive Answer where
  | task (identity : Bytes) (context : CloudFilesOperationContext) (entry : Nat)
  | refused (message : String)
  | notFound
  | unsupportedRange
  | drained (entry : Nat)
  | abandoned (entry : Nat)
  deriving DecidableEq

structure Dispatcher where
  entries : List Entry
  requests : List Registration
  cancels : List CancelCall
  calls : Nat
  stopping : Bool
  drain : Option Drain
  disposals : Nat
  answers : List Answer
  deriving DecidableEq

def Dispatcher.initial : Dispatcher := ⟨[],[],[],0,false,none,0,[]⟩

def Dispatcher.answer (dispatcher : Dispatcher) (answer : Answer) : Dispatcher :=
  { dispatcher with answers := dispatcher.answers++[answer] }

def Dispatcher.amendEntry (dispatcher : Dispatcher) (id : Nat) (change : Entry → Entry) : Dispatcher :=
  { dispatcher with entries := amend Entry.id dispatcher.entries id change }

-- FetchDataAsync's locked section; the dictionary holds the entries themselves.
def register (provider : Provider) (dispatcher : Dispatcher) (identityBytes : Bytes)
    (owned : CloudFilesOperationContext) : Dispatcher :=
  if dispatcher.stopping then dispatcher.answer (.refused "Callback provider is stopping.")
  else match find Registration.key dispatcher.requests (keyOf owned) with
    | some existing => match find Entry.id dispatcher.entries existing.entry with
      | some entry =>
        if entry.context ≠ owned ∨ entry.identity ≠ identityBytes then
          dispatcher.answer (.refused "Callback request key was reused for different data.")
        else dispatcher.answer (.task identityBytes owned entry.id)
      | none => dispatcher
    | none =>
      if dispatcher.requests.length ≥ provider.maximumRequests then
        dispatcher.answer (.refused "Callback active request limit reached.")
      else
        let id := dispatcher.entries.length
        Dispatcher.answer { dispatcher with
          entries := dispatcher.entries++[⟨id,identityBytes,owned,false,.absent,false,.registered⟩]
          requests := dispatcher.requests++[⟨keyOf owned,id⟩] } (.task identityBytes owned id)

def fetchData (provider : Provider) (dispatcher : Dispatcher) (identityBytes : Bytes)
    (context : CloudFilesOperationContext) : Dispatcher :=
  match ownedContext provider identityBytes context with
  | .error message => dispatcher.answer (.refused message)
  | .ok owned => register provider dispatcher identityBytes owned

def requestCancel (entry : Entry) : Entry :=
  if entry.ended then entry
  else match entry.cancelTask with
    | .absent => { entry with cancelTask := .running, cancellationRequested := true }
    | _ => entry

-- An exception for the cancelled token counts as a cancellation only once the
-- token of this entry is cancelled.
def outcome (entry : Entry) (result : Result) : Result :=
  if result = .cancelled ∧ entry.cancellationRequested = false then .failed else result

def settled (entry : Entry) : Bool := decide (entry.cancelTask ≠ .running)

def isCompleted (entry : Entry) : Bool := match entry.phase with
  | .completed _ => true
  | _ => false

def cancelFetch (provider : Provider) (dispatcher : Dispatcher) (key : CloudFilesRequestKey) (offset length : Int) :
    Dispatcher :=
  if key.connectionKey ≠ provider.connection then dispatcher.answer .notFound
  else match find Registration.key dispatcher.requests key with
  | none => dispatcher.answer .notFound
  | some existing => match find Entry.id dispatcher.entries existing.entry with
    | none => dispatcher.answer .notFound
    | some entry =>
      if offset ≠ entry.context.requiredOffset ∨ length ≠ entry.context.requiredLength then
        dispatcher.answer .unsupportedRange
      else { dispatcher with
        cancels := dispatcher.cancels++[⟨dispatcher.calls,entry.id,.requesting⟩]
        calls := dispatcher.calls+1 }

inductive Event where
  | fetchData (identityBytes : Bytes) (context : CloudFilesOperationContext)
  | hydrate (entry : Nat)
  | hydrated (entry : Nat) (result : Result)
  | ending (entry : Nat)
  | observed (entry : Nat)
  | retire (entry : Nat)
  | cancelFetchData (key : CloudFilesRequestKey) (offset length : Int)
  | requestCancel (call : Nat)
  | cancelObserved (call : Nat)
  | cancelReturns (call : Nat)
  | cancelAbandoned (call : Nat)
  | cancellationRan (entry : Nat)
  | stop
  | stopRequest
  | stopObserved
  | stopCompleted

def runStep (dispatcher : Dispatcher) (entry : Entry) : Event → Option Dispatcher
  | .hydrate _ => match entry.phase with
    | .registered => some (dispatcher.amendEntry entry.id fun row => { row with phase := .hydrating })
    | _ => none
  | .hydrated _ result => match entry.phase with
    | .hydrating => some (dispatcher.amendEntry entry.id fun row => { row with phase := .returned (outcome row result) })
    | _ => none
  | .ending _ => match entry.phase with
    | .returned result => some (dispatcher.amendEntry entry.id fun row => { row with ended := true, phase := .ending result })
    | _ => none
  | .observed _ => match entry.phase with
    | .ending result =>
      if settled entry then some (dispatcher.amendEntry entry.id fun row => { row with phase := .observed result }) else none
    | _ => none
  | .retire _ => match entry.phase with
    | .observed result => some { dispatcher.amendEntry entry.id fun row => { row with phase := .completed result } with
        requests := drop Registration.key dispatcher.requests entry.key }
    | _ => none
  | .cancellationRan _ => match entry.cancelTask with
    | .running => some (dispatcher.amendEntry entry.id fun row => { row with cancelTask := .finished })
    | _ => none
  | _ => none

def setStage (dispatcher : Dispatcher) (call : Nat) (stage : CancelStage) : Dispatcher :=
  { dispatcher with cancels := amend CancelCall.id dispatcher.cancels call fun row => { row with stage := stage } }

def leave (dispatcher : Dispatcher) (call : CancelCall) (answer : Answer) : Dispatcher :=
  Dispatcher.answer { dispatcher with cancels := drop CancelCall.id dispatcher.cancels call.id } answer

def cancelStep (dispatcher : Dispatcher) (call : CancelCall) (entry : Entry) : Event → Option Dispatcher
  | .requestCancel _ => match call.stage with
    | .requesting => some (setStage (dispatcher.amendEntry entry.id requestCancel) call.id (.observing (!entry.ended)))
    | _ => none
  | .cancelObserved _ => match call.stage with
    | .observing waits => if !waits || settled entry then some (setStage dispatcher call.id .completing) else none
    | _ => none
  | .cancelReturns _ => match call.stage with
    | .completing => if isCompleted entry then some (leave dispatcher call (.drained entry.id)) else none
    | _ => none
  | .cancelAbandoned _ => match call.stage with
    | .requesting => none
    | _ => some (leave dispatcher call (.abandoned entry.id))
  | _ => none

def every (dispatcher : Dispatcher) (ids : List Nat) (test : Entry → Bool) : Bool :=
  dispatcher.entries.all fun entry => !ids.contains entry.id || test entry

def drainStep (dispatcher : Dispatcher) (drain : Drain) : Event → Option Dispatcher
  | .stopRequest => match drain with
    | .cancelling (id :: remaining) awaited all =>
      let waits := dispatcher.entries.any fun entry => decide (entry.id = id) && !entry.ended
      some { dispatcher.amendEntry id requestCancel with
        drain := some (.cancelling remaining (if waits then id :: awaited else awaited) all) }
    | .cancelling [] awaited all => some { dispatcher with drain := some (.observing awaited all) }
    | _ => none
  | .stopObserved => match drain with
    | .observing awaited all =>
      if every dispatcher awaited settled then some { dispatcher with drain := some (.completing all) } else none
    | _ => none
  | .stopCompleted => match drain with
    | .completing all =>
      if every dispatcher all isCompleted then
        some { dispatcher with drain := some .done, disposals := dispatcher.disposals+1 }
      else none
    | _ => none
  | _ => none

def subject : Event → Option Nat
  | .hydrate entry => some entry
  | .hydrated entry _ => some entry
  | .ending entry => some entry
  | .observed entry => some entry
  | .retire entry => some entry
  | .cancellationRan entry => some entry
  | _ => none

def cancelSubject : Event → Option Nat
  | .requestCancel call => some call
  | .cancelObserved call => some call
  | .cancelReturns call => some call
  | .cancelAbandoned call => some call
  | _ => none

-- One atomic step of any task of the dispatcher; `none` is a step that cannot
-- be taken now. StopAsync and DisposeAsync start the one drain.
def advance (provider : Provider) (dispatcher : Dispatcher) (event : Event) : Option Dispatcher :=
  match event with
  | .fetchData identityBytes context => some (fetchData provider dispatcher identityBytes context)
  | .cancelFetchData key offset length => some (cancelFetch provider dispatcher key offset length)
  | .stop => some (match dispatcher.drain with
    | none =>
      let present := dispatcher.requests.map Registration.entry
      { dispatcher with stopping := true, drain := some (.cancelling present [] present) }
    | some _ => dispatcher)
  | _ => match subject event with
    | some id => match find Entry.id dispatcher.entries id with
      | some entry => runStep dispatcher entry event
      | none => none
    | none => match cancelSubject event with
      | some id => match find CancelCall.id dispatcher.cancels id with
        | some call => match find Entry.id dispatcher.entries call.entry with
          | some entry => cancelStep dispatcher call entry event
          | none => none
        | none => none
      | none => match dispatcher.drain with
        | some drain => drainStep dispatcher drain event
        | none => none

def Step (provider : Provider) (before : Dispatcher) (event : Event) (after : Dispatcher) : Prop :=
  advance provider before event = some after
end LedgeTopOps.CallbackDispatcher
