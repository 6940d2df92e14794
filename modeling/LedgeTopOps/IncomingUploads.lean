import LedgeTopOps.KeyedRows
import LedgeTopOps.StepRuns

namespace LedgeTopOps.IncomingUploads
open KeyedRows

-- The uploads of one file request: the row of the request, the rows of its uploads and
-- the quarantine bucket, changed by five operations call by call.
inductive Status where
  | uploading | quarantined | accepted | rejected | expired
  deriving DecidableEq

-- `multipart` is none while the row has its creator's pending upload ID; `file` stands for the columns an init
-- compares besides the size; `creator`, the init that inserted the row, is no column.
structure Upload where
  (id creator : Nat)
  multipart : Option Nat
  (file size : Nat)
  status : Status
  (claimed released : Bool)

inductive Multipart where
  | absent | opened | completed | aborted
  deriving DecidableEq

-- `returned` and `pickedUp` are histories: the inits whose reservation was given back,
-- and the objects that pickup has removed.
structure Store where
  (reservedFiles reservedBytes maxFiles maxBytes : Nat)
  accepting : Bool
  rows : List Upload
  objects : Nat → Option Nat
  multiparts : Nat → Multipart
  nextMultipart : Nat
  returned : List Nat
  pickedUp : Nat → Bool

def Store.row (s : Store) (id : Nat) : Option Upload := find Upload.id s.rows id
def Store.amend (s : Store) (id : Nat) (change : Upload → Upload) : Store := { s with rows := KeyedRows.amend Upload.id s.rows id change }

def Store.matching (s : Store) (id : Nat) (condition : Upload → Bool) : Bool := s.rows.any fun row => row.id = id && condition row
def Store.update (s : Store) (id : Nat) (condition : Upload → Bool) (change : Upload → Upload) : Store :=
  s.amend id fun row => if condition row then change row else row

def Store.setObject (s : Store) (id : Nat) (object : Option Nat) : Store :=
  { s with objects := fun other => if other = id then object else s.objects other }
def Store.setMultipart (s : Store) (multipart : Nat) (state : Multipart) : Store :=
  { s with multiparts := fun other => if other = multipart then state else s.multiparts other }

def Store.mayReserve (s : Store) (size : Nat) : Bool :=
  s.accepting && s.reservedFiles < s.maxFiles && s.reservedBytes + size ≤ s.maxBytes

def Store.reserve (s : Store) (size : Nat) : Store :=
  { s with reservedFiles := s.reservedFiles + 1, reservedBytes := s.reservedBytes + size }

-- MAX(0, …) of the counters is the subtraction of natural numbers.
def Store.giveBack (s : Store) (creator size : Nat) : Store :=
  { s with reservedFiles := s.reservedFiles - 1, reservedBytes := s.reservedBytes - size, returned := creator :: s.returned }

-- The statement of releaseReservedQuota with the trigger that runs in it.
def Store.releaseReservedQuota (s : Store) (id : Nat) : Store :=
  match s.row id with
  | some row => if row.released then s else (s.amend id fun row => { row with released := true }).giveBack row.creator row.size
  | none => s

def Store.expire (s : Store) (id : Nat) (statuses : List Status) : Store :=
  s.update id (fun row => statuses.contains row.status) fun row => { row with status := .expired }

def Store.abort (s : Store) (multipart : Option Nat) : Store :=
  match multipart with
  | some multipart => if s.multiparts multipart = .opened then s.setMultipart multipart .aborted else s
  | none => s

structure Input where
  (name id file size : Nat)

inductive Pc where
  -- files/init
  | initRead (input : Input)
  | reserve (input : Input)
  | insert (input : Input)
  | insertFailed (input : Input)
  | raced (input : Input)
  | create (input : Input)
  | initialise (input : Input) (multipart : Nat)
  | lost (input : Input) (multipart : Nat)
  | workflow (input : Input) (multipart : Nat)
  | workflowAbort (input : Input) (multipart : Nat)
  | workflowDelete (input : Input) (multipart : Nat)
  | undoAbort (input : Input) (multipart : Nat)
  | undoDelete (input : Input) (inserted released : Bool)
  | undoGive (input : Input) (inserted : Bool)
  -- DELETE files/:fileId
  | cancelRead (id : Nat)
  | cancelAbort (row : Upload)
  | cancelMark (row : Upload)
  | cancelRelease (row : Upload)
  -- complete
  | completeRead (id : Nat)
  | claim (row : Upload)
  | compose (row : Upload)
  | composeFailed (row : Upload)
  | unclaim (row : Upload)
  | refuse (row : Upload)
  | reject (row : Upload)
  | rejectRelease (row : Upload)
  | probe (row : Upload)
  | transition (row : Upload)
  | drop (row : Upload)
  | dropMark (row : Upload)
  | dropRelease (row : Upload)
  -- accepted
  | acceptRead (id : Nat)
  | acceptHead (row : Upload)
  | acceptMark (row : Upload)
  | acceptRelease (row : Upload)
  -- the lifecycle workflow
  | lifeDay (id : Nat)
  | lifeRetention (id : Nat)
  | expireAbort (row : Upload)
  | expireDelete (row : Upload)
  | expireMark (row : Upload)
  | expireRelease (row : Upload)
  | expired (row : Upload)
  | expireThrown (row : Upload)
  | lifeOver
  -- a request that has been answered, or has ended, perhaps still with its reservation
  | stopped (held : Option Nat)

-- `composed` is the size of a completion's object; `flag` answers what is not in the store: a blocked probe, a held
-- pickup lease, a bound workflow.
inductive Reply where
  | ok
  | failed
  | composed (size : Nat)
  | flag (yes : Bool)

def statement (s : Store) (effect : Store) (next fails : Pc) : Reply → Option (Store × Pc)
  | .ok => some (effect,next)
  | .failed => some (s,fails)
  | _ => none

def asked (s : Store) (next : Bool → Pc) (fails : Pc) : Reply → Option (Store × Pc)
  | .flag yes => some (s,next yes)
  | .failed => some (s,fails)
  | _ => none

def halted : Pc := .stopped none

def newUpload (input : Input) : Upload :=
  { id := input.id, creator := input.name, multipart := none, file := input.file, size := input.size, status := .uploading,
    claimed := false, released := false }

def expireUpload (row : Upload) : Pc := if row.status = .uploading then .expireAbort row else .expireDelete row

def Pc.call (s : Store) : Pc → Reply → Option (Store × Pc)
  -- An init that finds a row resumes it or refuses; either way it ends.
  | .initRead input => statement s s (match s.row input.id with | some _ => halted | none => .reserve input) halted
  | .reserve input => statement s (if s.mayReserve input.size then s.reserve input.size else s)
      (if s.mayReserve input.size then .insert input else halted) halted
  | .insert input => fun reply =>
      -- The row id is a primary key.
      if (s.row input.id).isSome then statement s s (.insertFailed input) (.insertFailed input) reply
      else statement s { s with rows := s.rows++[newUpload input] } (.create input) (.insertFailed input) reply
  | .insertFailed input => statement s (s.giveBack input.name input.size) (.raced input) (.undoDelete input false false)
  -- Whatever is read here, the handler throws into the outer one.
  | .raced input => statement s s (.undoDelete input false true) (.undoDelete input false true)
  | .create input => statement s { s.setMultipart s.nextMultipart .opened with nextMultipart := s.nextMultipart + 1 }
      (.initialise input s.nextMultipart) (.undoDelete input true false)
  | .initialise input multipart =>
      let pending := fun (row : Upload) => row.multipart = none && row.creator = input.name && row.status = .uploading
      statement s (s.update input.id pending fun row => { row with multipart := some multipart })
        (if s.matching input.id pending then .workflow input multipart else .lost input multipart) (.undoAbort input multipart)
  | .lost input multipart => statement s (s.abort (some multipart)) (.undoAbort input multipart) (.undoAbort input multipart)
  | .workflow input multipart => asked s (fun _ => halted) (.workflowAbort input multipart)
  | .workflowAbort input multipart => statement s (s.abort (some multipart)) (.workflowDelete input multipart) (.workflowDelete input multipart)
  | .workflowDelete input multipart => statement s { s with rows := s.rows.filter fun row => row.id ≠ input.id }
      (.undoAbort input multipart) (.undoAbort input multipart)
  | .undoAbort input multipart => statement s (s.abort (some multipart)) (.undoDelete input true false) (.undoDelete input true false)
  | .undoDelete input inserted released => statement s
      { s with rows := s.rows.filter fun row => !(row.id = input.id && row.status = .uploading) }
      (if released then halted else .undoGive input inserted) (.stopped (if inserted || released then none else some input.size))
  | .undoGive input inserted => statement s (s.giveBack input.name input.size) halted
      (.stopped (if inserted then none else some input.size))
  | .cancelRead id => statement s s (match s.row id with
      | some row => if row.status = .uploading then (if row.multipart = none then .cancelMark row else .cancelAbort row) else halted
      | none => halted) halted
  | .cancelAbort row => statement s (s.abort row.multipart) (.cancelMark row) halted
  | .cancelMark row => statement s (s.expire row.id [.uploading])
      (if s.matching row.id (·.status = .uploading) then .cancelRelease row else halted) halted
  | .cancelRelease row => statement s (s.releaseReservedQuota row.id) halted halted
  | .completeRead id => statement s s (match s.row id with
      | some row => if row.status = .uploading then .claim row else halted
      | none => halted) halted
  | .claim row =>
      let free := fun (row : Upload) => row.status = .uploading && !row.claimed
      statement s (s.update row.id free fun row => { row with claimed := true }) (if s.matching row.id free then .compose row else halted) halted
  -- Only an open multipart upload can be completed.
  | .compose row => fun reply => match reply, row.multipart with
      | .composed size, some multipart => if s.multiparts multipart = .opened then
          some ((s.setMultipart multipart .completed).setObject row.id (some size),if size = row.size then .probe row else .refuse row)
        else none
      | .failed, _ => some (s,.composeFailed row)
      | _, _ => none
  | .composeFailed row => statement s s (if s.objects row.id = some row.size then .probe row else .unclaim row) halted
  | .unclaim row => statement s (s.update row.id (·.status = .uploading) fun row => { row with claimed := false }) halted halted
  | .refuse row => statement s (s.setObject row.id none) (.reject row) halted
  | .reject row => statement s (s.update row.id (·.status = .uploading) fun row => { row with status := .rejected }) (.rejectRelease row) halted
  | .rejectRelease row => statement s (s.releaseReservedQuota row.id) halted halted
  | .probe row => asked s (fun blocked => if blocked || (s.objects row.id).isNone then .refuse row else .transition row) halted
  | .transition row =>
      let open' := fun (row : Upload) => row.status = .uploading && s.accepting
      statement s (s.update row.id open' fun row => { row with status := .quarantined })
        (if s.matching row.id open' then halted else .drop row) (.unclaim row)
  | .drop row => statement s (s.setObject row.id none) (.dropMark row) halted
  | .dropMark row => statement s (s.expire row.id [.uploading])
      (if s.matching row.id (·.status = .uploading) then .dropRelease row else halted) halted
  | .dropRelease row => statement s (s.releaseReservedQuota row.id) halted halted
  | .acceptRead id => statement s s (match s.row id with
      | some row => if row.status = .quarantined then .acceptHead row else halted
      | none => halted) halted
  | .acceptHead row => statement s s (if (s.objects row.id).isSome then halted else .acceptMark row) halted
  -- The UPDATE also asks for the pickup lease.
  | .acceptMark row => fun reply => match reply with
      | .flag leased =>
          if leased && s.matching row.id (·.status = .quarantined) then
            some (s.update row.id (·.status = .quarantined) fun row => { row with status := .accepted },.acceptRelease row)
          else some (s,halted)
      | .failed => some (s,halted)
      | _ => none
  | .acceptRelease row => statement s (s.releaseReservedQuota row.id) halted halted
  | .lifeDay id => statement s s (match s.row id with
      | some row => if row.status = .accepted || row.status = .expired then .lifeOver
          else if row.status = .uploading then expireUpload row else .lifeRetention id
      | none => .lifeOver) (.lifeDay id)
  | .lifeRetention id => statement s s (match s.row id with
      | some row => if row.status = .accepted || row.status = .expired then .lifeOver else expireUpload row
      | none => .lifeOver) (.lifeRetention id)
  -- An abort that fails is ignored.
  | .expireAbort row => statement s (s.abort row.multipart) (.expireMark row) (.expireMark row)
  | .expireDelete row => statement s (s.setObject row.id none) (.expireMark row) (.expireThrown row)
  | .expireMark row => statement s (s.expire row.id [.uploading,.quarantined,.rejected])
      (if s.matching row.id (fun row => [Status.uploading,.quarantined,.rejected].contains row.status) then .expireRelease row
        else .expired row) (.expireThrown row)
  | .expireRelease row => statement s (s.releaseReservedQuota row.id) (.expired row) (.expireThrown row)
  | .expired _ => fun _ => none
  | .expireThrown _ => fun _ => none
  | .lifeOver => fun _ => none
  | .stopped _ => fun _ => none

def Pc.starts : Pc → Reply → List Pc
  | .workflow input _, .flag true => [.lifeDay input.id]
  | _, _ => []

def Pc.step : Pc → Option Upload
  | .expireAbort row | .expireDelete row | .expireMark row | .expireRelease row | .expired row | .expireThrown row => some row
  | _ => none

def Pc.holding : Pc → Option Nat
  | .insert input | .insertFailed input => some input.size
  | .undoDelete input false false | .undoGive input false => some input.size
  | .stopped held => held
  | _ => none

structure World where
  store : Store
  flows : List Pc

inductive Action where
  | init (id file size : Nat)
  | cancel (id : Nat)
  | complete (id : Nat)
  | accepted (id : Nat)
  | reply (flow : Nat) (reply : Reply)
  | crash (flow : Nat)
  | again (flow : Nat)
  | record (flow : Nat)
  | close
  | pickup (id : Nat)

def World.begin (w : World) (pc : Pc) : World := { w with flows := w.flows++[pc] }

def next (w : World) : Action → Option World
  | .init id file size => some (w.begin (.initRead ⟨w.flows.length,id,file,size⟩))
  | .cancel id => some (w.begin (.cancelRead id))
  | .complete id => some (w.begin (.completeRead id))
  | .accepted id => some (w.begin (.acceptRead id))
  | .reply index reply => (w.flows[index]?).bind fun pc => (pc.call w.store reply).map fun step =>
      { store := step.1, flows := w.flows.set index step.2++pc.starts reply }
  -- A worker that dies; the lifecycle's step is executed again instead.
  | .crash index => (w.flows[index]?).bind fun pc => match pc.step with
    | some row => some { w with flows := w.flows.set index (.expireThrown row) }
    | none => match pc with
      | .lifeDay _ | .lifeRetention _ | .lifeOver => none
      | _ => some { w with flows := w.flows.set index (.stopped pc.holding) }
  | .again index => (w.flows[index]?).bind fun pc => pc.step.map fun row => { w with flows := w.flows.set index (expireUpload row) }
  | .record index => (w.flows[index]?).bind fun pc => match pc with
    | .expired _ => some { w with flows := w.flows.set index .lifeOver }
    | _ => none
  | .close => some { w with store := { w.store with accepting := false } }
  -- Pickup removes the object of a quarantined upload once it has promoted it.
  | .pickup id => if w.store.matching id (·.status = .quarantined) then
      some { w with store := { w.store.setObject id none with pickedUp := fun other => other = id || w.store.pickedUp other } } else none
end LedgeTopOps.IncomingUploads
