import LedgeTopOps.KeyedRows
import LedgeTopOps.StepRuns

namespace LedgeTopOps.MemoryAttachments
open KeyedRows StepRuns Function

-- Attachments of the project memory: the uploads, the clean-up of their abandoned attempts,
-- the tables and the bucket that both work on.
structure Key where
  (actor operation : String)
  deriving DecidableEq

structure File where
  size : Nat
  sha : String
  deriving DecidableEq

structure Request where
  key : Key
  (source project details : String)
  file : File
  deriving DecidableEq

inductive Status where
  | prepared | objectWritten | completed | cleanupPending | cleanupComplete | cleanupFailed
  deriving DecidableEq

-- A row of project_memory_attachment_upload_intents; its object key holds the attachment id.
structure Intent where
  key : Key
  request : Request
  attachment : Nat
  etag : Option String
  status : Status
  claimed : Bool
  attempts : Nat
  deriving DecidableEq

structure Attachment where
  id : Nat
  key : Key
  file : File
  etag : String

structure Stored where
  file : File
  attachment : Nat
  etag : String

inductive UploadPc where
  | receipt | insert | read
  | head (mine : Intent)
  | put (mine : Intent)
  | again (mine : Intent)
  | promote (mine : Intent) (etag : String)
  | commit (mine : Intent) (etag : String)
  | winner | schedule | ended

structure Upload where
  name : Nat
  request : Request
  pc : UploadPc

inductive CleanerPc where
  | row
  | referenced (mine : Intent)
  | head (mine : Intent)
  | delete (mine : Intent)
  | check (mine : Intent)
  | complete (mine : Intent)
  | fail (manual : Bool) (attempts : Nat)
  | ended
  deriving DecidableEq

structure Cleaner where
  name : Nat
  key : Key
  pc : CleanerPc

structure World where
  intents : List Intent
  attachments : List Attachment
  receipts : List (Key × Nat)
  bucket : Nat → Option Stored
  nextId : Nat
  uploads : List Upload
  cleaners : List Cleaner

def initial : World := ⟨[],[],[],fun _ => none,0,[],[]⟩
def MAX_PROJECT_PENDING_ATTACHMENTS : Nat := 10
def MAX_PROJECT_PENDING_BYTES : Nat := 100 * 1024 * 1024
def MAX_ACTOR_PENDING_ATTACHMENTS : Nat := 5
def MAX_ACTOR_PENDING_BYTES : Nat := 50 * 1024 * 1024
def MAX_CLEANUP_ATTEMPTS : Nat := 8

def Status.pending : Status → Bool
  | .prepared | .objectWritten | .cleanupPending | .cleanupFailed => true
  | .completed | .cleanupComplete => false

section
variable (w : World)

def World.receipted (k : Key) : Bool := w.receipts.any (·.1 = k)

-- The budget of pending uploads that the INSERT of an intent stays within.
def World.budget (counted : Intent → Bool) (file : File) (count bytes : Nat) : Bool :=
  let pending := w.intents.filter fun r => r.status.pending && counted r
  decide (pending.length < count) && decide (pending.foldl (fun total r => total + r.request.file.size) 0 + file.size ≤ bytes)

-- INSERT OR IGNORE of the intent, with a fresh attachment id.
def World.insert (request : Request) : World :=
  if w.intents.any (·.key = request.key) then w
  else if w.budget (fun r => r.request.source = request.source && r.request.project = request.project) request.file
      MAX_PROJECT_PENDING_ATTACHMENTS MAX_PROJECT_PENDING_BYTES &&
      w.budget (fun r => r.key.actor = request.key.actor) request.file MAX_ACTOR_PENDING_ATTACHMENTS MAX_ACTOR_PENDING_BYTES then
    { w with intents := w.intents++[⟨request.key,request,w.nextId,none,.prepared,false,0⟩], nextId := w.nextId + 1 }
  else w

def Intent.promotable (r : Intent) (etag : String) : Bool :=
  (r.status = .prepared || r.status = .objectWritten || r.status = .cleanupPending) && !r.claimed && r.etag.all (· = etag)

def World.promote (k : Key) (etag : String) : Option World :=
  match find Intent.key w.intents k with
  | some r => if r.promotable etag then
      some { w with intents := amend Intent.key w.intents k fun r => { r with status := .objectWritten, etag := some etag } }
    else none
  | none => none

-- The final batch: its guards, with those of the insert trigger, then all of its rows.
def World.commit (k : Key) (mine : Intent) (etag : String) : Option World :=
  match find Intent.key w.intents k with
  | some r =>
    if r.status = .objectWritten ∧ r.claimed = false ∧ r.attachment = mine.attachment ∧ r.request = mine.request ∧ r.etag = some etag ∧
        w.receipted k = false ∧ w.attachments.any (·.id = mine.attachment) = false then
      some { w with
        intents := amend Intent.key w.intents k fun r => { r with status := .completed }
        attachments := w.attachments++[⟨mine.attachment,k,mine.request.file,etag⟩]
        receipts := w.receipts++[(k,mine.attachment)] }
    else none
  | none => none

-- scheduleCleanup; the transition trigger refuses it where a clean-up has ended.
def World.scheduleCleanup (k : Key) : World :=
  { w with intents := amend Intent.key w.intents k fun r =>
      if r.status = .prepared ∨ r.status = .objectWritten ∨ r.status = .cleanupPending then { r with status := .cleanupPending, claimed := false } else r }

def World.claim (k : Key) : World :=
  { w with intents := amend Intent.key w.intents k fun r => { r with claimed := true, attempts := r.attempts + 1 } }

def World.complete (k : Key) : World :=
  { w with intents := amend Intent.key w.intents k fun r =>
      if r.status = .cleanupPending ∧ r.claimed = true then { r with status := .cleanupComplete, claimed := false } else r }

def World.giveBack (k : Key) (terminal : Bool) : World :=
  { w with intents := amend Intent.key w.intents k fun r =>
      if r.status = .cleanupPending then { r with status := if terminal then .cleanupFailed else .cleanupPending, claimed := false } else r }

def World.abandon (old : Key → Bool) : World :=
  { w with intents := w.intents.map fun r =>
      if (r.status = .prepared ∨ r.status = .objectWritten) ∧ old r.key = true then { r with status := .cleanupPending, claimed := false } else r }

def World.prune (old : Key → Bool) : World :=
  { w with intents := w.intents.filter fun r => !((r.status = .completed || r.status = .cleanupComplete) && old r.key) }
end

section
variable (w : World)

def World.goes (u : Upload) (pc : UploadPc) : World := { w with uploads := amend Upload.name w.uploads u.name fun u => { u with pc := pc } }
def World.moves (c : Cleaner) (pc : CleanerPc) : World := { w with cleaners := amend Cleaner.name w.cleaners c.name fun c => { c with pc := pc } }
def verified (mine : Intent) (o : Stored) : Bool := o.file = mine.request.file && o.attachment = mine.attachment
def looked (mine : Intent) (o : Stored) : UploadPc := if verified mine o then .promote mine o.etag else .schedule

def admitted (request : Request) (r : Intent) : UploadPc :=
  if r.request ≠ request then .ended
  else if r.status = .completed then .ended
  else if r.claimed = true ∨ r.status = .cleanupComplete ∨ r.status = .cleanupFailed then .ended
  else .head r

def UploadPc.failed : UploadPc → Option UploadPc
  | .receipt | .insert | .read | .schedule => some .ended
  | .head _ | .put _ | .again _ | .promote _ _ | .winner => some .schedule
  | .commit _ _ => some .winner
  | .ended => none

-- A call that returns; `etag` is what the bucket gives an object that is put.
def World.call (u : Upload) (etag : String) : Option World :=
  match u.pc with
  | .receipt => some (w.goes u (if w.receipted u.request.key then .ended else .insert))
  | .insert => some ((w.insert u.request).goes u .read)
  | .read => some (w.goes u (match find Intent.key w.intents u.request.key with
    | none => .ended
    | some r => admitted u.request r))
  | .head mine => some (w.goes u (match w.bucket mine.attachment with
    | none => .put mine
    | some o => looked mine o))
  | .put mine => match w.bucket mine.attachment with
    | none => some ({ w with bucket := update w.bucket mine.attachment (some ⟨mine.request.file,mine.attachment,etag⟩) }.goes u (.promote mine etag))
    | some _ => some (w.goes u (.again mine))
  | .again mine => some (w.goes u (match w.bucket mine.attachment with
    | none => .schedule
    | some o => looked mine o))
  | .promote mine seen => match w.promote u.request.key seen with
    | some v => some (v.goes u (.commit mine seen))
    | none => some (w.goes u .schedule)
  | .commit mine seen => match w.commit u.request.key mine seen with
    | some v => some (v.goes u .ended)
    | none => some (w.goes u .winner)
  | .winner => some (w.goes u (if w.receipted u.request.key then .ended else .schedule))
  | .schedule => some ((w.scheduleCleanup u.request.key).goes u .ended)
  | .ended => none

def owned (mine : Intent) (o : Stored) : Bool :=
  o.file = mine.request.file && mine.etag.all (· = o.etag) && o.attachment = mine.attachment

def CleanerPc.failed : CleanerPc → Option CleanerPc
  | .row | .fail _ _ => some .ended
  | .referenced mine | .head mine | .delete mine | .check mine | .complete mine => some (.fail false mine.attempts)
  | .ended => none

def World.clean (c : Cleaner) : Option World :=
  match c.pc with
  | .row => some (w.moves c (match find Intent.key w.intents c.key with
    | none => .ended
    | some r => .referenced r))
  | .referenced mine => some (w.moves c (if w.attachments.any (·.id = mine.attachment) then .fail true mine.attempts else .head mine))
  | .head mine => some (w.moves c (match w.bucket mine.attachment with
    | none => .complete mine
    | some o => if owned mine o then .delete mine else .fail true mine.attempts))
  | .delete mine => some ({ w with bucket := update w.bucket mine.attachment none }.moves c (.check mine))
  | .check mine => some (w.moves c (if (w.bucket mine.attachment).isSome then .fail false mine.attempts else .complete mine))
  | .complete _ => some ((w.complete c.key).moves c .ended)
  | .fail manual attempts => some ((w.giveBack c.key (manual || MAX_CLEANUP_ATTEMPTS ≤ attempts)).moves c .ended)
  | .ended => none
end

-- One call of an upload or a clean-up, or a clean-up's claims, its first and last statement. Times are choices of
-- what is old or stale.
inductive Action where
  | upload (name : Nat) (request : Request)
  | call (name : Nat) (etag : String)
  | callFails (name : Nat)
  | claim (name : Nat) (key : Key) (stale : Bool)
  | clean (name : Nat)
  | cleanFails (name : Nat)
  | abandon (old : Key → Bool)
  | prune (old : Key → Bool)

def next (w : World) : Action → Option World
  | .upload name request => if w.uploads.any (·.name = name) then none else some { w with uploads := w.uploads++[⟨name,request,.receipt⟩] }
  | .call name etag => (find Upload.name w.uploads name).bind fun u => w.call u etag
  | .callFails name => (find Upload.name w.uploads name).bind fun u => u.pc.failed.map (w.goes u)
  | .claim name key stale =>
    if w.cleaners.any (·.name = name) then none
    else match find Intent.key w.intents key with
      | some r =>
        if r.status = .cleanupPending ∧ r.attempts < MAX_CLEANUP_ATTEMPTS ∧ (r.claimed = false ∨ stale = true) then
          some { w.claim key with cleaners := w.cleaners++[⟨name,key,.row⟩] }
        else none
      | none => none
  | .clean name => (find Cleaner.name w.cleaners name).bind fun c => w.clean c
  | .cleanFails name => (find Cleaner.name w.cleaners name).bind fun c => c.pc.failed.map (w.moves c)
  | .abandon old => some (w.abandon old)
  | .prune old => some (w.prune old)

def CleanerPc.working : CleanerPc → Bool
  | .row | .referenced _ | .head _ | .delete _ | .check _ | .complete _ => true
  | .fail _ _ | .ended => false

-- It has found the object gone, and only records that.
def CleanerPc.finishing (pc : CleanerPc) (attachment : Nat) : Bool :=
  match pc with
  | .complete mine => mine.attachment = attachment
  | _ => false

-- No failed upload takes back a clean-up's claim, no object is put after a clean-up found it gone, and an upload
-- promotes its intent while its object is there.
def World.fair (w : World) (u : Upload) : Bool :=
  match u.pc with
  | .schedule => !w.cleaners.any fun c => c.key = u.request.key && c.pc.working
  | .put mine => (w.bucket mine.attachment).isSome || (!(w.cleaners.any fun c => c.pc.finishing mine.attachment) &&
      w.intents.all fun r => r.attachment ≠ mine.attachment || r.status ≠ .cleanupComplete)
  | .promote _ seen => (find Intent.key w.intents u.request.key).all fun r =>
      !r.promotable seen || (w.bucket r.attachment).any fun o => o.etag = seen && o.file = r.request.file
  | _ => true

-- And no clean-up claims an intent that another still runs on.
def spared (w : World) : Action → Bool
  | .call name _ => (find Upload.name w.uploads name).all w.fair
  | .claim _ key _ => !w.cleaners.any fun c => c.key = key && c.pc ≠ .ended
  | _ => true

-- The bytes are kept, one operation commits one attachment, and what is cleaned up is gone.
structure Custody (w : World) : Prop where
  kept : ∀ a ∈ w.attachments, ∃ o, w.bucket a.id = some o ∧ o.etag = a.etag ∧ o.file = a.file
  single : (w.attachments.map Attachment.key).Nodup
  cleaned : ∀ r ∈ w.intents, r.status = .cleanupComplete → w.bucket r.attachment = none
end LedgeTopOps.MemoryAttachments
