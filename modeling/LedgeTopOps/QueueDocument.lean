import LedgeTopOps.TransferRecord
import LedgeTopOps.KeyedRows

namespace LedgeTopOps.QueueDocument
open JsonTree TransferRecord KeyedRows
open Option (bind_some)

def maximumJobs : Nat := 1000
def maximumStateBytes : Nat := 8388608

def stateNamed (name : Text) : Option QueuedTransferState :=
  [.queued,.running,.paused,.cancelled,.completed,.failed,.versionChanged,.loginRequired,.accessDenied,
    .resourceUnavailable].find? fun state => state.name == name

theorem stateNamed_name (state : QueuedTransferState) : stateNamed state.name = some state := by
  cases state <;> decide

def transferNames : List Text :=
  ["jobId".toList,"resourceReference".toList,"destination".toList,"logicalFileId".toList,"remoteVersion".toList,
    "fileName".toList,"length".toList,"eTag".toList,"sha256".toList,"recoveryRequired".toList,"state".toList,
    "errorCode".toList]

def stateNames : List Text :=
  ["schemaVersion".toList,"sourceAlias".toList,"origin".toList,"principalId".toList,"jobs".toList]

def transferFields (job : QueuedTransfer) : List (Text × Json) :=
  [("jobId".toList,.string (Guid.text job.jobId)), ("resourceReference".toList,.string job.resourceReference), ("destination".toList,.string job.destination),
    ("logicalFileId".toList,.string job.logicalFileId),
    ("remoteVersion".toList,.string job.remoteVersion),
    ("fileName".toList,.string job.fileName),
    ("length".toList,.number job.length),
    ("eTag".toList,.string job.eTag),
    ("sha256".toList,.string job.sha256),
    ("recoveryRequired".toList,.bool job.recoveryRequired),
    ("state".toList,.string job.state.name),
    ("errorCode".toList,match job.errorCode with | none => .null | some code => .string code)]

def stateFields (owner : Owner) (jobs : List QueuedTransfer) : List (Text × Json) :=
  [("schemaVersion".toList,.number 1), ("sourceAlias".toList,.string owner.sourceAlias), ("origin".toList,.string owner.origin),
    ("principalId".toList,.string owner.principal),
    ("jobs".toList,.array (jobs.map fun job => .object (transferFields job)))]

def document (owner : Owner) (jobs : List QueuedTransfer) : Json := .object (stateFields owner jobs)

inductive ReadError where
  | exceedsBounds | malformed | anotherSource | accessDenied | reference | destination | pins
  deriving DecidableEq

structure State where
  schemaVersion : Int
  owner : Owner
  jobs : List QueuedTransfer

def textAt (name : Text) (item : Json) : Option Text := (property name item).bind Json.text

def readTransfer (item : Json) : Option QueuedTransfer :=
  ((textAt "jobId".toList item).bind Guid.parse).bind fun jobId =>
  (textAt "resourceReference".toList item).bind fun resourceReference =>
  (textAt "destination".toList item).bind fun destination =>
  (textAt "logicalFileId".toList item).bind fun logicalFileId =>
  (textAt "remoteVersion".toList item).bind fun remoteVersion =>
  (textAt "fileName".toList item).bind fun fileName =>
  ((property "length".toList item).bind Json.int).bind fun length =>
  (textAt "eTag".toList item).bind fun eTag =>
  (textAt "sha256".toList item).bind fun sha256 =>
  ((property "recoveryRequired".toList item).bind Json.flag).bind fun recoveryRequired =>
  ((textAt "state".toList item).bind stateNamed).bind fun state =>
  ((property "errorCode".toList item).bind Json.textOrNull).bind fun errorCode =>
  some ⟨jobId,resourceReference,destination,logicalFileId,remoteVersion,fileName,length,eTag,sha256,
    recoveryRequired,state,errorCode⟩

def jobItems (item : Json) : Option (List Json) := (property "jobs".toList item).bind Json.items

def deserialize (item : Json) : Option State :=
  ((property "schemaVersion".toList item).bind Json.int).bind fun schemaVersion =>
  (textAt "sourceAlias".toList item).bind fun sourceAlias =>
  (textAt "origin".toList item).bind fun origin =>
  (textAt "principalId".toList item).bind fun principalId =>
  ((jobItems item).bind fun items => items.mapM readTransfer).bind fun jobs =>
  some ⟨schemaVersion,⟨sourceAlias,origin,principalId⟩,jobs⟩

def identified (item : Json) : Bool :=
  exact transferNames item &&
    match textAt "jobId".toList item with
    | none => false
    | some text => match Guid.parse text with
      | none => false
      | some jobId => jobId.text == text

def misstated (job : QueuedTransfer) : Bool :=
  job.jobId == Guid.empty || !logicalFile job.logicalFileId ||
    (job.recoveryRequired && (job.state == .queued || job.state.isOver)) ||
    isNullOrWhiteSpace job.remoteVersion || decide (256 < units job.remoteVersion) || job.remoteVersion.any isControl ||
    job.errorCode.any fun code => !errorCodes.contains code

def checkTransfer (platform : Platform) (job : QueuedTransfer) : Except ReadError Unit :=
  if misstated job then .error .malformed else
  if !reference job.resourceReference then .error .reference else
  if !canonicalStoredDestination platform job.destination then .error .destination else
  if validatePins platform job.fileName job.length job.eTag job.sha256 then .ok () else .error .pins

def checkTransfers (platform : Platform) : List QueuedTransfer → Except ReadError Unit
  | [] => .ok ()
  | job :: rest => match checkTransfer platform job with
    | .error error => .error error
    | .ok () => checkTransfers platform rest

def checkState (platform : Platform) (owner : Owner) (state : State) : Except ReadError (List QueuedTransfer) :=
  if state.schemaVersion ≠ 1 ∨ state.owner.sourceAlias ≠ owner.sourceAlias ∨ state.owner.origin ≠ owner.origin
  then .error .anotherSource else
  if state.owner.principal ≠ owner.principal then .error .accessDenied else
  if maximumJobs < state.jobs.length ∨ ¬(state.jobs.map QueuedTransfer.jobId).Nodup then .error .malformed else
  match checkTransfers platform state.jobs with
  | .error error => .error error
  | .ok () => .ok state.jobs

def readState (platform : Platform) (owner : Owner) (content : Json) : Except ReadError (List QueuedTransfer) :=
  if maximumStateBytes < size content then .error .exceedsBounds else
  if !noDuplicates content || !exact stateNames content then .error .malformed else
  if (property "schemaVersion".toList content).bind Json.int ≠ some 1 then .error .malformed else
  match jobItems content with
  | none => .error .malformed
  | some items =>
    if !items.all identified then .error .malformed else
    match deserialize content with
    | none => .error .malformed
    | some state => checkState platform owner state
theorem transferNames_apart : transferNames.Nodup := by decide
theorem stateNames_apart : stateNames.Nodup := by decide
theorem transferFields_names (job : QueuedTransfer) : (transferFields job).map Prod.fst = transferNames := rfl
theorem stateFields_names (owner : Owner) (jobs : List QueuedTransfer) :
    (stateFields owner jobs).map Prod.fst = stateNames := rfl

theorem property_transfer (job : QueuedTransfer) (place : Nat) (written : (transferFields job)[place]? = some (name,value)) :
    property name (.object (transferFields job)) = some value :=
  lookup_mem transferNames_apart (List.mem_of_getElem? written)

theorem property_state (owner : Owner) (jobs : List QueuedTransfer) (place : Nat) (written : (stateFields owner jobs)[place]? = some (name,value)) :
    property name (document owner jobs) = some value :=
  lookup_mem stateNames_apart (List.mem_of_getElem? written)

theorem textAt_known (known : property name item = some (.string value)) : textAt name item = some value := by
  rw [textAt,known]
  rfl

theorem readTransfer_written (job : QueuedTransfer) : readTransfer (.object (transferFields job)) = some job := by
  have code : ((property "errorCode".toList (.object (transferFields job))).bind Json.textOrNull) = some job.errorCode := by
    rw [property_transfer job 11 rfl]
    cases job.errorCode <;> rfl
  unfold readTransfer
  rw [textAt_known (property_transfer job 0 rfl),bind_some,Guid.parse_text,bind_some, textAt_known (property_transfer job 1 rfl),bind_some,
    textAt_known (property_transfer job 2 rfl),bind_some,
    textAt_known (property_transfer job 3 rfl),bind_some,
    textAt_known (property_transfer job 4 rfl),bind_some,
    textAt_known (property_transfer job 5 rfl),bind_some,
    property_transfer job 6 rfl,bind_some,Json.int,bind_some,
    textAt_known (property_transfer job 7 rfl),bind_some,
    textAt_known (property_transfer job 8 rfl),bind_some,
    property_transfer job 9 rfl,bind_some,Json.flag,bind_some,
    textAt_known (property_transfer job 10 rfl),bind_some,stateNamed_name,bind_some,
    code,bind_some]

theorem readTransfers_written (jobs : List QueuedTransfer) : (jobs.map fun job => Json.object (transferFields job)).mapM readTransfer = some jobs := by
  induction jobs with
  | nil => rfl
  | cons _ _ ih => simp [List.mapM_cons,readTransfer_written,ih]

theorem jobItems_document (owner : Owner) (jobs : List QueuedTransfer) :
    jobItems (document owner jobs) = some (jobs.map fun job => Json.object (transferFields job)) := by
  rfl

theorem identified_written (job : QueuedTransfer) : identified (.object (transferFields job)) := by
  have names : exact transferNames (.object (transferFields job)) :=
    List.isPerm_iff.mpr (by rw [transferFields_names])
  unfold identified
  rw [names,textAt_known (property_transfer job 0 rfl)]
  simp only [Guid.parse_text,beq_self_eq_true,Bool.and_self]

theorem noDuplicates_transfer (job : QueuedTransfer) : noDuplicates (.object (transferFields job)) := by
  have code : noDuplicates (match job.errorCode with | none => .null | some code => .string code) := by
    cases job.errorCode <;> rfl
  simp [transferFields,noDuplicatesFields,noDuplicates,code]

theorem noDuplicates_document (owner : Owner) (jobs : List QueuedTransfer) : noDuplicates (document owner jobs) := by
  have items : noDuplicatesItems (jobs.map fun job => .object (transferFields job)) := by
    apply noDuplicatesItems_iff.mpr
    intro _ mem
    obtain ⟨job,_,rfl⟩ := List.mem_map.mp mem
    exact noDuplicates_transfer job
  simp only [document,noDuplicates,stateFields_names,stateNames_apart,decide_true,Bool.true_and]
  simp [stateFields,noDuplicatesFields,noDuplicates,items]

theorem deserialize_document (owner : Owner) (jobs : List QueuedTransfer) : deserialize (document owner jobs) = some ⟨1,owner,jobs⟩ := by
  unfold deserialize
  rw [property_state owner jobs 0 rfl,bind_some,Json.int,bind_some, textAt_known (property_state owner jobs 1 rfl),bind_some,
    textAt_known (property_state owner jobs 2 rfl),bind_some,
    textAt_known (property_state owner jobs 3 rfl),bind_some,
    jobItems_document,bind_some,readTransfers_written,bind_some]

theorem readState_document (platform : Platform) (reader owner : Owner) (jobs : List QueuedTransfer) :
    readState platform reader (document owner jobs) = if maximumStateBytes < size (document owner jobs) then .error .exceedsBounds
      else checkState platform reader ⟨1,owner,jobs⟩ := by
  have names : exact stateNames (document owner jobs) :=
    List.isPerm_iff.mpr (by rw [stateFields_names])
  have version : (property "schemaVersion".toList (document owner jobs)).bind Json.int = some 1 := by
    rfl
  have all : (jobs.map fun job => Json.object (transferFields job)).all identified := by
    apply List.all_eq_true.mpr
    intro _ mem
    obtain ⟨job,_,rfl⟩ := List.mem_map.mp mem
    exact identified_written job
  simp only [readState,noDuplicates_document,names,version,jobItems_document,all,deserialize_document]
  simp

theorem checkTransfers_iff : checkTransfers platform jobs = .ok () ↔ ∀ job ∈ jobs, checkTransfer platform job = .ok () := by
  induction jobs with
  | nil => simp [checkTransfers]
  | cons job _ ih =>
    unfold checkTransfers
    cases checked : checkTransfer platform job with
    | error => simp [checked]
    | ok => simpa [checked] using ih

theorem readState_ok : readState platform reader (document owner jobs) = .ok values ↔
    values = jobs ∧ owner = reader ∧ size (document owner jobs) ≤ maximumStateBytes ∧ jobs.length ≤ maximumJobs ∧
      Keyed QueuedTransfer.jobId jobs ∧ ∀ job ∈ jobs, checkTransfer platform job = .ok () := by
  rw [readState_document]
  by_cases large : maximumStateBytes < size (document owner jobs)
  · have oversized : ¬size (document owner jobs) ≤ maximumStateBytes := Nat.not_le.mpr large
    simp only [large,if_true,oversized,false_and,and_false,iff_false]
    exact nofun
  simp only [large,if_false,checkState]
  by_cases another : owner.sourceAlias ≠ reader.sourceAlias ∨ owner.origin ≠ reader.origin
  · simp only [another,or_true,if_true]
    constructor
    · intro impossible; cases impossible
    intro ⟨_,same,_⟩; subst same; simp at another
  by_cases stranger : owner.principal ≠ reader.principal
  · simp only [another,stranger,or_false,ne_eq,not_true_eq_false,if_false,not_false_eq_true,if_true]
    constructor
    · intro impossible; cases impossible
    intro ⟨_,same,_⟩; subst same; exact absurd rfl stranger
  have same : owner = reader := by
    obtain ⟨alike,origin⟩ := not_or.mp another
    cases owner; cases reader
    simp_all
  subst same
  by_cases many : maximumJobs < jobs.length ∨ ¬(jobs.map QueuedTransfer.jobId).Nodup
  · simp only [ne_eq,not_true_eq_false,or_self,if_false,many,if_true]
    constructor
    · intro impossible; cases impossible
    intro ⟨_,_,_,few,keyed,_⟩
    rcases many with more | double
    · exact absurd few (Nat.not_le.mpr more)
    exact absurd keyed double
  have ⟨few,keyed⟩ := not_or.mp many
  simp only [ne_eq,not_true_eq_false,or_self,if_false,many]
  cases checked : checkTransfers platform jobs with
  | error =>
    have failing : ¬∀ job ∈ jobs, checkTransfer platform job = .ok () := by
      rw [←checkTransfers_iff,checked]
      exact nofun
    simp [failing]
  | ok _ =>
    have passing := checkTransfers_iff.mp checked
    simp only [Except.ok.injEq]
    constructor
    · intro same
      exact ⟨same.symm,trivial,Nat.not_lt.mp large,Nat.not_lt.mp few,not_not.mp keyed,passing⟩
    intro ⟨same,_⟩
    exact same.symm
end LedgeTopOps.QueueDocument
