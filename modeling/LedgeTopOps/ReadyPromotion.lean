import LedgeTopOps.KeyedRows
import LedgeTopOps.StepRuns

namespace LedgeTopOps.ReadyPromotion
open KeyedRows StepRuns

-- The promotion of one quarantined upload to the ready prefix: the upload's row and its journal, the bucket's
-- multipart uploads, and the flows that work on them.
abbrev Bytes := List UInt8

structure Provider where
  content : String → Bytes
  partEtag : Bytes → String

structure SourceIdentity where
  etag : String
  bytes : Nat
  objectVersion : String
  deriving DecidableEq

structure StoredPart where
  partNumber : Nat
  etag : String
  deriving DecidableEq

inductive PromotionState where
  | pending | copying | publishing | ready | unavailable | failed
  deriving DecidableEq

structure JournalRow where
  sourceIdentity : SourceIdentity
  multipartUploadId : Option Nat
  parts : List StoredPart
  state : PromotionState
  deriving DecidableEq

inductive UploadStatus where
  | uploading | quarantined | accepted | rejected | expired
  deriving DecidableEq

structure UploadRow where
  status : UploadStatus
  (verificationRejected revoked : Bool)
  actualEtag : Option String
  actualBytes : Option Nat
  declaredBytes : Nat
  deriving DecidableEq

structure SourceObject where
  (version etag : String)

structure Destination where
  size : Nat
  source : SourceIdentity
  deriving DecidableEq

structure Multipart where
  id : Nat
  source : SourceIdentity

structure SentPart where
  (multipart number : Nat)
  bytes : Bytes

def INCOMING_MAX_BYTES : Nat := 2 * 1024 * 1024 * 1024 * 1024
def R2_MULTIPART_MIN_PART_BYTES : Nat := 5 * 1024 * 1024
def R2_MULTIPART_MAX_PART_BYTES : Nat := 5 * 1024 * 1024 * 1024
def R2_MULTIPART_MAX_PARTS : Nat := 10000

structure MultipartCopyPlan where
  (partBytes partCount lastPartBytes : Nat)
  deriving DecidableEq

def ceilDiv (a b : Nat) : Nat := (a + b - 1) / b

def planIncomingMultipartCopy (sourceBytes : Nat) : Option MultipartCopyPlan :=
  if sourceBytes = 0 ∨ INCOMING_MAX_BYTES < sourceBytes then none
  else
    let required := ceilDiv sourceBytes R2_MULTIPART_MAX_PARTS
    let partBytes := max R2_MULTIPART_MIN_PART_BYTES (ceilDiv required R2_MULTIPART_MIN_PART_BYTES * R2_MULTIPART_MIN_PART_BYTES)
    if R2_MULTIPART_MAX_PART_BYTES < partBytes then none
    else
      let partCount := ceilDiv sourceBytes partBytes
      if R2_MULTIPART_MAX_PARTS < partCount then none
      else some ⟨partBytes,partCount,sourceBytes - partBytes * (partCount - 1)⟩

def MultipartCopyPlan.offset (plan : MultipartCopyPlan) (number : Nat) : Nat := (number - 1) * plan.partBytes
def MultipartCopyPlan.length (plan : MultipartCopyPlan) (number : Nat) : Nat := if number = plan.partCount then plan.lastPartBytes else plan.partBytes

def MultipartCopyPlan.range (plan : MultipartCopyPlan) (bytes : Bytes) (number : Nat) : Bytes :=
  (bytes.drop (plan.offset number)).take (plan.length number)

inductive Pc where
  | resume
  | eligible (row : JournalRow)
  | basic (row : JournalRow) (upload : UploadRow)
  | head (row : JournalRow)
  | unavailable
  | create (row : JournalRow)
  | save (multipart : Nat)
  | discard (multipart : Nat)
  | fetch (row : JournalRow) (plan : MultipartCopyPlan)
  | send (row : JournalRow) (number : Nat) (bytes : Bytes)
  | keep (row : JournalRow) (number : Nat) (etag : String)
  | fence (row : JournalRow)
  | complete (row : JournalRow)
  | settle
  | recover (row : JournalRow)
  | begin_
  | admitted
  | origin (upload : UploadRow) (etag : String) (bytes : Nat)
  | sample (source : SourceIdentity)
  | insert (source : SourceIdentity)
  | exhaust
  | expire
  | current
  | retained
  | retire (multipart : Option Nat)
  | abort (multipart : Nat)
  | ended
  deriving DecidableEq

structure Flow where
  name : Nat
  pc : Pc

structure Completion where
  multipart : Nat
  parts : List StoredPart
  object : Option Bytes

-- `completions` are the calls so far. No program reads them.
structure World where
  upload : UploadRow
  source : Option SourceObject
  basic : Option SourceIdentity
  journal : Option JournalRow
  multiparts : List Multipart
  sent : List SentPart
  closed : List Nat
  destination : Option Destination
  flows : List Flow
  completions : List Completion

section
variable (p : Provider) (w : World)

def World.stateIn (states : List PromotionState) : Bool := w.journal.any fun j => j.state ∈ states
def World.revise (change : JournalRow → JournalRow) : World := { w with journal := w.journal.map change }

def World.mark (state : PromotionState) (states : List PromotionState) : World :=
  w.revise fun j => if j.state ∈ states then { j with state := state } else j

def UploadRow.eligible (u : UploadRow) : Bool := u.status = .quarantined && !u.verificationRejected && !u.revoked

def sameObject (o : SourceObject) (expected : SourceIdentity) : Bool :=
  (p.content o.version).length = expected.bytes && o.etag = expected.etag && o.version = expected.objectVersion

def World.saves : Bool := w.journal.any fun j => j.state = .pending && j.multipartUploadId = none
def World.save (multipart : Nat) : World :=
  w.revise fun j => if j.state = .pending ∧ j.multipartUploadId = none then { j with state := .copying, multipartUploadId := some multipart } else j

def JournalRow.holds (j row : JournalRow) : Bool := j.state = .copying && j.multipartUploadId = row.multipartUploadId && j.parts = row.parts
def World.keep (row : JournalRow) (part : StoredPart) : World :=
  w.revise fun j => if j.holds row then { j with parts := row.parts++[part] } else j

def World.fences (row : JournalRow) (timely : Bool) : Bool := w.journal.any (·.holds row) && w.upload.eligible && timely
def World.fence (row : JournalRow) (timely : Bool) : World :=
  w.revise fun j => if j.holds row && w.upload.eligible && timely then { j with state := .publishing } else j

def World.part (multipart number : Nat) : Option Bytes :=
  (w.sent.find? fun s => s.multipart = multipart ∧ s.number = number).map (·.bytes)

def World.assemble (multipart : Nat) : List StoredPart → Option Bytes
  | [] => some []
  | part :: rest => do
    let bytes ← w.part multipart part.partNumber
    if p.partEtag bytes = part.etag then
      let others ← World.assemble multipart rest
      some (bytes++others)
    else none

def World.complete (row : JournalRow) (multipart : Nat) : World :=
  let object := if multipart ∈ w.closed then none else w.assemble p multipart row.parts
  match object with
  | none => { w with completions := w.completions++[⟨multipart,row.parts,none⟩] }
  | some bytes => { w with
      closed := multipart :: w.closed
      destination := (w.multiparts.find? fun m => m.id = multipart).map fun m => ⟨bytes.length,m.source⟩
      completions := w.completions++[⟨multipart,row.parts,some bytes⟩] }
end

section
variable (p : Provider) (w : World)

def afterGuard (row : JournalRow) : Pc :=
  match planIncomingMultipartCopy row.sourceIdentity.bytes with
  | none => .ended
  | some plan =>
    if row.state = .pending then .create row
    else if row.parts.length < plan.partCount then .fetch row plan
    else .fence row

-- The effect of a call and what follows when it returns. `fine` is what the clock, the
-- sample's content and the names allow.
def World.effect (fine : Bool) : Pc → World × Pc
  | .resume => (w,match w.journal with
    | none => .begin_
    | some row => match row.state with
      | .publishing => .recover row
      | .ready | .unavailable | .failed => .ended
      | .pending | .copying => .eligible row)
  | .eligible row => (w,if w.upload.eligible && fine then .basic row w.upload else .unavailable)
  | .basic row upload => (w,
    if w.basic = some row.sourceIdentity ∧ upload.actualEtag = some row.sourceIdentity.etag ∧ upload.actualBytes = some row.sourceIdentity.bytes ∧
        row.sourceIdentity.bytes ≠ 0 then .head row
    else .unavailable)
  | .head row => (w,if w.source.any fun o => sameObject p o row.sourceIdentity then afterGuard row else .unavailable)
  | .unavailable => (w.mark .unavailable [.pending,.copying],.ended)
  | .create row => ({ w with multiparts := w.multiparts++[⟨w.multiparts.length,row.sourceIdentity⟩] },.save w.multiparts.length)
  | .save multipart => (w.save multipart,if w.saves then .ended else .discard multipart)
  | .discard multipart => ({ w with closed := multipart :: w.closed },.ended)
  | .fetch row plan =>
    let number := row.parts.length + 1
    (w,match w.source with
      | none => .unavailable
      | some o => if sameObject p o row.sourceIdentity then .send row number (plan.range (p.content o.version) number) else .unavailable)
  | .send row number bytes => match row.multipartUploadId with
    | none => (w,.ended)
    | some multipart => if multipart ∈ w.closed then (w,.ended)
      else ({ w with sent := ⟨multipart,number,bytes⟩ :: w.sent },.keep row number (p.partEtag bytes))
  | .keep row number etag => (w.keep row ⟨number,etag⟩,.ended)
  | .fence row => (w.fence row fine,if w.fences row fine then .complete row else .ended)
  | .complete row => match row.multipartUploadId with
    | none => (w,.ended)
    | some multipart => (w.complete p row multipart,
        if multipart ∈ w.closed ∨ w.assemble p multipart row.parts = none then .ended else .settle)
  | .settle => (w.mark .ready [.publishing],.ended)
  | .recover row => (w,if w.destination = some ⟨row.sourceIdentity.bytes,row.sourceIdentity⟩ then .settle else .ended)
  | .begin_ => (w,if w.journal.isSome then .ended else .admitted)
  | .admitted => (w,match w.upload.actualEtag, w.upload.actualBytes with
    | some etag, some bytes => if w.upload.eligible && fine && bytes ≠ 0 then .origin w.upload etag bytes else .ended
    | _, _ => .ended)
  | .origin upload etag bytes => (w,match w.source with
    | none => .ended
    | some o => if sameObject p o ⟨etag,bytes,o.version⟩ && o.version ≠ "" && upload.declaredBytes = bytes && fine then .sample ⟨etag,bytes,o.version⟩ else .ended)
  | .sample source => (w,if (w.source.any fun o => sameObject p o source) && fine then .insert source else .ended)
  | .insert source => (if w.journal.isSome then w else { w with basic := some source, journal := some ⟨source,none,[],.pending⟩ },.ended)
  | .exhaust => (w.mark .failed [.pending,.copying],.ended)
  | .expire => (if fine then w else { w with
      upload := if w.upload.status = .quarantined ∨ w.upload.status = .rejected ∨ w.upload.status = .expired then { w.upload with status := .expired } else w.upload },
      .current)
  | .current => (w,if w.upload.status = .expired then .retained else .ended)
  | .retained => (w,match w.journal with
    | none => .ended
    | some row => match row.state with
      | .ready | .publishing => .ended
      | .pending | .copying | .unavailable | .failed => .retire row.multipartUploadId)
  | .retire multipart => (w.mark .unavailable [.pending,.copying,.failed],match multipart with
    | none => .ended
    | some multipart => .abort multipart)
  | .abort multipart => ({ w with closed := multipart :: w.closed },.ended)
  | .ended => (w,.ended)

def World.goes (name : Nat) (pc : Pc) : World := { w with flows := amend Flow.name w.flows name fun f => { f with pc := pc } }
end

inductive Outcome where
  | returns | lost | fails

-- A call returns, takes effect and still errs, or fails; a flow whose call raises ends. A crash is a flow that no
-- event names again. Others change the upload's row, the source object and the destination.
inductive Event where
  | start (name : Nat) (pc : Pc)
  | call (name : Nat) (outcome : Outcome) (fine : Bool)
  | row (upload : UploadRow)
  | replaced (source : Option SourceObject)
  | moved (destination : Option Destination)

def Pc.opening (pc : Pc) : Bool := pc = .resume || pc = .begin_ || pc = .exhaust || pc = .expire || pc = .current
def UploadRow.withdrawn (u : UploadRow) : Bool := u.status = .expired || u.status = .rejected || u.verificationRejected || u.revoked

def next (p : Provider) (w : World) : Event → Option World
  | .start name pc => if pc.opening && !w.flows.any (·.name = name) then some { w with flows := w.flows++[⟨name,pc⟩] } else none
  | .call name outcome fine => (find Flow.name w.flows name).bind fun f =>
    if f.pc = .ended then none
    else match outcome with
      | .returns => some ((w.effect p fine f.pc).1.goes name (w.effect p fine f.pc).2)
      | .lost => some ((w.effect p fine f.pc).1.goes name .ended)
      | .fails => some (w.goes name .ended)
  | .row upload => if w.upload.withdrawn && !upload.withdrawn then none else some { w with upload := upload }
  | .replaced source => some { w with source := source }
  | .moved destination => some { w with destination := destination }

def initial (upload : UploadRow) (source : Option SourceObject) : World := ⟨upload,source,none,none,[],[],[],none,[],[]⟩

-- The ready object is completed at most once, of the parts of the whole source.
structure Published (p : Provider) (w : World) : Prop where
  once : w.completions.length ≤ 1
  exact : ∀ c ∈ w.completions, ∃ j plan, w.journal = some j ∧ planIncomingMultipartCopy j.sourceIdentity.bytes = some plan ∧
    j.multipartUploadId = some c.multipart ∧ c.parts.map StoredPart.partNumber = (List.range plan.partCount).map (· + 1) ∧
    (∀ part ∈ c.parts, part.etag = p.partEtag (plan.range (p.content j.sourceIdentity.objectVersion) part.partNumber)) ∧
    (c.parts.flatMap fun part => plan.range (p.content j.sourceIdentity.objectVersion) part.partNumber) = p.content j.sourceIdentity.objectVersion ∧
    (p.content j.sourceIdentity.objectVersion).length = j.sourceIdentity.bytes ∧
    ∀ bytes, c.object = some bytes → bytes = p.content j.sourceIdentity.objectVersion

structure Stays (w v : World) : Prop where
  published : w.stateIn [.publishing,.ready] = true → v.stateIn [.publishing,.ready] = true
  ready : w.stateIn [.ready] = true → v.stateIn [.ready] = true
  stopped : w.stateIn [.unavailable,.failed] = true → v.stateIn [.unavailable,.failed] = true ∧ v.completions = w.completions
  fenced : w.upload.withdrawn = true → v.upload.withdrawn = true ∧ (v.stateIn [.publishing,.ready] = true → w.stateIn [.publishing,.ready] = true)
end LedgeTopOps.ReadyPromotion
