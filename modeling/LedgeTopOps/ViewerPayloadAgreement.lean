import LedgeTopOps.ViewerIntake

namespace LedgeTopOps.ViewerPayloadAgreement
open List JsonText ViewerPayloads ViewerIntake
open Option (bind_eq_some_iff elim_none elim_some map_eq_some_iff map_some)

structure Fields where
  (eventId type occurredAt projectId : Text)
  projectName : Option Text
  (taskId taskName attemptId requestedBy status : Text)
  failure : Option (Text × Text)
  review : Option Text

structure Carries (members : Members) (f : Fields) : Prop where
  strict : onlyNames eventNames members = true
  schemaVersion : members.lookup "schemaVersion" = some (.number 1)
  eventId : members.lookup "eventId" = some (.string f.eventId)
  type : members.lookup "type" = some (.string f.type)
  occurredAt : members.lookup "occurredAt" = some (.string f.occurredAt)
  projectId : members.lookup "projectId" = some (.string f.projectId)
  projectName : members.lookup "projectDisplayName" = f.projectName.map .string
  taskId : members.lookup "taskId" = some (.string f.taskId)
  taskName : members.lookup "taskDisplayName" = some (.string f.taskName)
  attemptId : members.lookup "attemptId" = some (.string f.attemptId)
  requestedBy : members.lookup "requestedBySubject" = some (.string f.requestedBy)
  status : members.lookup "status" = some (.string f.status)
  failure : members.lookup "error" = f.failure.map fun failure => summary failure.1 failure.2
  review : members.lookup "reviewUrl" = f.review.map .string

def valueBytes (text : Text) : Nat := utf8Length (stringify (.string text))

def Fields.bytes (f : Fields) : Nat :=
  221 + valueBytes f.eventId + valueBytes f.type + valueBytes f.occurredAt + valueBytes f.projectId +
    (f.projectName.elim 0 fun name => 22 + valueBytes name) + valueBytes f.taskId + valueBytes f.taskName + valueBytes f.attemptId +
    valueBytes f.requestedBy + valueBytes f.status +
    (f.failure.elim 0 fun failure => 68 + valueBytes failure.1 + valueBytes failure.2) + f.review.elim 0 fun url => 22 + valueBytes url

def finalCode (code : Text) : Text := bounded (bounded code 80) 80
def finalMessage (message : Text) : Text := safeMessage (safeMessage message)

def Notice.purged : Notice → Bool
  | .job purged _ _ => purged
  | _ => false

def Notice.failure : Notice → Option (Text × Text)
  | .job _ code message | .derivative _ code message => some (finalCode code,finalMessage message)
  | .exhausted _ timedOut => some (if timedOut then (ascii "derivative_timeout",ascii "derivative wall-clock deadline expired")
      else (ascii "derivative_retry_exhausted",ascii "derivative lease retry limit exhausted"))
  | .ready => none

def Notice.eventId (attempt : Uuid) : Notice → Text
  | .job _ _ _ => failedEventId attempt
  | .derivative retries _ _ | .exhausted retries _ => retriedEventId attempt retries
  | .ready => ascii "processing-ready-"++attempt.text

def reviewed (opsBaseUrl : Text) (attempt : Uuid) : Text := opsBaseUrl++ascii "/operations/processing?attemptId="++attempt.text

def Notice.status : Notice → Text
  | .ready => ascii "ready_for_review"
  | _ => ascii "failed"

def Notice.review (opsBaseUrl : Text) (attempt : Uuid) : Notice → Option Text
  | .ready => some (reviewed opsBaseUrl attempt)
  | _ => none

def fields (opsBaseUrl occurredAt : Text) (work : Work) (notice : Notice) : Fields :=
  { eventId := Notice.eventId work.attempt.id notice
    type := eventType notice
    occurredAt := occurredAt
    projectId := work.task.projectId
    projectName := if Notice.purged notice then none else some work.project.displayName
    taskId := work.task.id
    taskName := work.task.displayName
    attemptId := work.attempt.id.text
    requestedBy := work.attempt.createdBy.text
    status := Notice.status notice
    failure := Notice.failure notice
    review := Notice.review opsBaseUrl work.attempt.id notice }

theorem reviewUrl_uuid (opsBaseUrl : Text) (attempt : Uuid) : reviewUrl opsBaseUrl attempt.text = some (reviewed opsBaseUrl attempt) := by
  rw [reviewUrl,encodeURIComponent_ids (opaqueText_units attempt.shape)]
  rfl

section
variable {id occurredAt : Text}

def named (work : Work) (purged : Bool) : Members := if purged then [] else [("projectDisplayName",.string work.project.displayName)]

theorem job_settled : settled (clean id (failJobTerminal occurredAt code message (terminalEvent work purged))) =
    [("eventId",.string id),("schemaVersion",.number 1),("type",.string (ascii "processing.failed")),("projectId",.string work.task.projectId)] ++
      named work purged ++ [("taskId",.string work.task.id),("taskDisplayName",.string work.task.displayName),("attemptId",.string work.attempt.id.text),
       ("requestedBySubject",.string work.attempt.createdBy.text),("status",.string (ascii "failed")),("occurredAt",.string occurredAt),
       ("error",summary (finalCode code) (finalMessage message))] := by
  cases purged with
  | false | true => rfl

theorem failed_settled : settled (clean id (failedEvent work retries occurredAt code message)) =
    [("eventId",.string id),("schemaVersion",.number 1),("type",.string (ascii "processing.failed")),("occurredAt",.string occurredAt),
     ("projectId",.string work.task.projectId),("projectDisplayName",.string work.project.displayName),
     ("taskId",.string work.task.id),("taskDisplayName",.string work.task.displayName),("attemptId",.string work.attempt.id.text),
     ("requestedBySubject",.string work.attempt.createdBy.text),("status",.string (ascii "failed")),
     ("error",summary (bounded code 80) (safeMessage message))] := rfl

theorem ready_settled (url : Text) : settled (clean id (completeOutputForReview occurredAt
      (header (ascii "processing-ready-"++work.attempt.id.text) "processing.ready_for_review" ++
        described work (some (.string work.project.displayName)) "ready_for_review"++[("reviewUrl",some (.string url))]))) =
    [("eventId",.string id),("schemaVersion",.number 1),("type",.string (ascii "processing.ready_for_review")),
     ("projectId",.string work.task.projectId),("projectDisplayName",.string work.project.displayName),
     ("taskId",.string work.task.id),("taskDisplayName",.string work.task.displayName),("attemptId",.string work.attempt.id.text),
     ("requestedBySubject",.string work.attempt.createdBy.text),("status",.string (ascii "ready_for_review")),
     ("reviewUrl",.string url),("occurredAt",.string occurredAt)] := rfl
end

theorem name_bytes : ∀ name ∈ ["code","message"]++eventNames, utf8Length (quote (ascii name)) ≤ 20 := by decide +kernel

def valuesBytes : Members → Nat
  | [] => 0
  | (_,value) :: rest => utf8Length (stringify value) + valuesBytes rest

theorem memberBytes_le (names : ∀ mem ∈ members, mem.1 ∈ ["code","message"]++eventNames) : memberBytes members ≤ 22 * members.length + valuesBytes members := by
  induction members with
  | nil => exact le_refl _
  | cons mem _ ih =>
    have here := name_bytes mem.1 (names mem mem_cons_self)
    have later := ih fun other inside => names other (mem_cons_of_mem _ inside)
    simp only [memberBytes,valuesBytes,length_cons]
    omega

theorem summary_bytes (code message : Text) : utf8Length (stringify (summary code message)) ≤ 46 + valueBytes code + valueBytes message := by
  have outer := object_bytes [("code",.string code),("message",.string message)]
  have inner : memberBytes [("code",.string code),("message",.string message)] ≤
      22 * 2 + valuesBytes [("code",.string code),("message",.string message)] := memberBytes_le fun mem inside => by
    simp only [mem_cons,not_mem_nil,or_false] at inside
    rcases inside with rfl | rfl
    · exact mem_cons_self
    exact mem_cons_of_mem _ mem_cons_self
  simp only [valuesBytes] at inner
  simp only [summary,valueBytes]
  omega

structure Holds (members : Members) (f : Fields) : Prop where
  carries : Carries members f
  bytes : 22 * members.length + valuesBytes members ≤ f.bytes

theorem Holds.body (holds : Holds members f) : utf8Length (stringify (.object members)) ≤ 2 + f.bytes := by
  have outer := object_bytes members
  have inner : memberBytes members ≤ 22 * members.length + valuesBytes members := memberBytes_le fun mem inside => mem_append_right _
    (contains_iff_mem.mp (all_eq_true.mp holds.carries.strict mem inside))
  have bound := holds.bytes
  omega

section
theorem job_holds (purged : Bool) (code message : Text) :
    Holds (settled (clean (failedEventId work.attempt.id) (failJobTerminal occurredAt code message (terminalEvent work purged))))
      (fields opsBaseUrl occurredAt work (.job purged code message)) := by
  have inner := summary_bytes (finalCode code) (finalMessage message)
  rw [job_settled]
  cases purged with
  | false =>
    refine ⟨⟨rfl,rfl,rfl,rfl,rfl,rfl,rfl,rfl,rfl,rfl,rfl,rfl,rfl,rfl⟩,?_⟩
    simp only [named,fields,Fields.bytes,valuesBytes,valueBytes,Notice.purged,Notice.failure,Notice.review,Notice.status,Notice.eventId,eventType,
      Bool.false_eq_true,if_false,cons_append,nil_append,length_cons,length_nil,elim_some,elim_none] at inner ⊢
    have version : utf8Length (stringify (.number 1)) = 1 := by decide +kernel
    omega
  | true =>
    refine ⟨⟨rfl,rfl,rfl,rfl,rfl,rfl,rfl,rfl,rfl,rfl,rfl,rfl,rfl,rfl⟩,?_⟩
    simp only [named,fields,Fields.bytes,valuesBytes,valueBytes,Notice.purged,Notice.failure,Notice.review,Notice.status,Notice.eventId,eventType,
      if_true,cons_append,nil_append,length_cons,length_nil,elim_some,elim_none] at inner ⊢
    have version : utf8Length (stringify (.number 1)) = 1 := by decide +kernel
    omega

theorem failed_holds (opsBaseUrl : Text) (f : Fields) (known : f = { fields opsBaseUrl occurredAt work notice with failure := some (bounded code 80,safeMessage message) })
    (failed : eventType notice = ascii "processing.failed") (status : Notice.status notice = ascii "failed")
    (shown : Notice.purged notice = false) (plain : Notice.review opsBaseUrl work.attempt.id notice = none) :
    Holds (settled (clean (Notice.eventId work.attempt.id notice) (failedEvent work retries occurredAt code message))) f := by
  have inner := summary_bytes (bounded code 80) (safeMessage message)
  have version : utf8Length (stringify (.number 1)) = 1 := by decide +kernel
  rw [failed_settled,known]
  simp only [fields,failed,status,shown,plain,Bool.false_eq_true,if_false]
  refine ⟨⟨rfl,rfl,rfl,rfl,rfl,rfl,rfl,rfl,rfl,rfl,rfl,rfl,rfl,rfl⟩,?_⟩
  simp only [Fields.bytes,valuesBytes,valueBytes,length_cons,length_nil,elim_some,elim_none] at inner ⊢
  omega

theorem ready_holds : Holds (settled (clean (ascii "processing-ready-"++work.attempt.id.text) (completeOutputForReview occurredAt
      (header (ascii "processing-ready-"++work.attempt.id.text) "processing.ready_for_review" ++
        described work (some (.string work.project.displayName)) "ready_for_review" ++
        [("reviewUrl",some (.string (reviewed opsBaseUrl work.attempt.id)))])))) (fields opsBaseUrl occurredAt work .ready) := by
  have version : utf8Length (stringify (.number 1)) = 1 := by decide +kernel
  rw [ready_settled]
  refine ⟨⟨rfl,rfl,rfl,rfl,rfl,rfl,rfl,rfl,rfl,rfl,rfl,rfl,rfl,rfl⟩,?_⟩
  simp only [fields,Fields.bytes,valuesBytes,valueBytes,Notice.purged,Notice.failure,Notice.review,Notice.status,Notice.eventId,eventType,
    Bool.false_eq_true,if_false,length_cons,length_nil,elim_some,elim_none]
  omega

theorem payload_holds (notice : Notice) : ∃ draft, payload opsBaseUrl occurredAt work notice = some draft ∧
    textOf (member draft "eventId") = Notice.eventId work.attempt.id notice ∧
    Holds (settled (clean (Notice.eventId work.attempt.id notice) draft)) (fields opsBaseUrl occurredAt work notice) := by
  cases notice with
  | job purged code message => exact ⟨_,rfl,rfl,job_holds purged code message⟩
  | derivative => exact ⟨_,rfl,rfl,failed_holds opsBaseUrl _ rfl rfl rfl rfl rfl⟩
  | exhausted _ timedOut =>
    cases timedOut with
    | true | false =>
      refine ⟨_,rfl,rfl,failed_holds opsBaseUrl _ ?_ rfl rfl rfl rfl⟩
      rfl
  | ready =>
    refine ⟨_,?_,rfl,ready_holds⟩
    simp only [payload,processingReadyEvent,reviewUrl_uuid,map_some]
end

theorem sized_some : sized least most text = some result ↔ (least ≤ text.length ∧ text.length ≤ most) ∧ result = text := by
  unfold sized
  constructor
  · intro done
    split at done
    · next fits => exact ⟨fits,(Option.some.inj done).symm⟩
    cases done
  rintro ⟨fits,rfl⟩
  exact if_pos fits

def Opaque (text : Text) : Prop := opaqueText text = true ∧ text.length ≤ 128

theorem opaqueText_length (shape : opaqueText text) : 1 ≤ text.length := by
  cases text with
  | nil => cases shape
  | cons => exact Nat.succ_le_succ (Nat.zero_le _)

theorem opaqueId_some : opaqueId text = some result ↔ Opaque text ∧ result = text := by
  unfold opaqueId Opaque
  constructor
  · intro done
    split at done
    · next shape =>
      obtain ⟨⟨_,short⟩,same⟩ := sized_some.mp done
      exact ⟨⟨shape,short⟩,same⟩
    cases done
  rintro ⟨⟨shape,short⟩,rfl⟩
  rw [if_pos shape]
  exact sized_some.mpr ⟨⟨opaqueText_length shape,short⟩,rfl⟩

theorem Opaque.read (known : Opaque text) : opaqueId text = some text := opaqueId_some.mpr ⟨known,rfl⟩

def Shown (most : Nat) (text : Text) : Prop := 1 ≤ (trim text).length ∧ (trim text).length ≤ most

theorem trimmed_some : trimmed most text = some result ↔ Shown most text ∧ result = trim text := sized_some

theorem stringMember_some (found : members.lookup name = some (.string text)) (accept : Text → Option Text) :
    stringMember members name accept = accept text := by
  rw [stringMember,found]
  rfl

theorem Subject.read (account : Subject) : subject account.text = some account.text := by
  have long : account.text.length = 4 + account.account.length := by rw [Subject.text,length_append]; rfl
  have short := account.short
  have begins : (ascii "ops:").isPrefixOf account.text := isPrefixOf_iff_prefix.mpr ⟨account.account,rfl⟩
  have rest : account.text.drop 4 = account.account := rfl
  rw [subject,begins,rest,account.shape,Bool.and_self,Bool.true_and,if_pos]
  exact decide_eq_true (by omega)

theorem Subject.plain (account : Subject) : Plain account.text := by
  intro c inside
  rcases mem_append.mp inside with lead | rest
  · have four : ∀ d ∈ ascii "ops:", 0x20 ≤ d ∧ d < 0x80 ∧ d ≠ 0x22 ∧ d ≠ 0x5C := by
      have listed : ascii "ops:" = [0x6F,0x70,0x73,0x3A] := by decide +kernel
      rw [listed]
      simp only [mem_cons,not_mem_nil,or_false]
      rintro d (rfl | rfl | rfl | rfl)
      all_goals decide
    exact four c lead
  exact opaqueText_plain account.shape c rest

theorem kept_some {accept : Text → Bool} : (if accept text = true then some text else none) = some result ↔ accept text ∧ result = text := by
  constructor
  · intro done
    split at done
    · next fits => exact ⟨fits,(Option.some.inj done).symm⟩
    cases done
  rintro ⟨fits,rfl⟩
  exact if_pos fits

theorem optionalMember_map {value : α → Json} {o : Option α} (found : members.lookup name = o.map value) (accept : Json → Option β) :
    optionalMember members name accept = o.elim (some none) fun x => (accept (value x)).map some := by
  rw [optionalMember,found]
  cases o with
  | none | some x => rfl

theorem failureSchema_some {failure : Failure} : failureSchema (summary code message) = some failure ↔
    (Shown 80 code ∧ Shown 500 message) ∧ failure = (⟨trim code,trim message⟩ : Failure) := by
  have strict : onlyNames ["code","message"] [("code",.string code),("message",.string message)] := rfl
  have codeMember : ∀ accept, stringMember [("code",.string code),("message",.string message)] "code" accept = accept code :=
    stringMember_some rfl
  have messageMember : ∀ accept, stringMember [("code",.string code),("message",.string message)] "message" accept = accept message :=
    stringMember_some rfl
  simp only [summary,failureSchema,strict,Bool.not_true,Bool.false_eq_true,if_false, codeMember,messageMember, bind_eq_some_iff,map_eq_some_iff,trimmed_some]
  constructor
  · rintro ⟨_,⟨first,rfl⟩,_,⟨second,rfl⟩,rfl⟩
    exact ⟨⟨first,second⟩,rfl⟩
  rintro ⟨⟨first,second⟩,rfl⟩
  exact ⟨_,⟨first,rfl⟩,_,⟨second,rfl⟩,rfl⟩

structure Admissible (platform : Platform) (f : Fields) : Prop where
  eventId : Opaque f.eventId
  type : eventTypes.contains f.type = true
  occurredAt : platform.datetime f.occurredAt = true
  projectId : Opaque f.projectId
  projectName : ∀ name, f.projectName = some name → Shown 160 name
  taskId : Opaque f.taskId
  taskName : Shown 160 f.taskName
  attemptId : Opaque f.attemptId
  requestedBy : subject f.requestedBy = some f.requestedBy
  status : Shown 80 f.status
  failure : ∀ failure, f.failure = some failure → Shown 80 failure.1 ∧ Shown 500 failure.2
  review : ∀ url, f.review = some url → (platform.parseUrl url).isSome = true ∧ url.length ≤ 2048

def eventOf (f : Fields) : Event :=
  ⟨f.eventId,f.type,f.occurredAt,f.projectId,f.projectName.map trim,f.taskId,some (trim f.taskName),f.attemptId,f.requestedBy,trim f.status,
   f.failure.map fun failure => ⟨trim failure.1,trim failure.2⟩,f.review⟩

theorem optional_some {accept : α → Option β} {fits : α → Prop} {read : α → β} (accepts : ∀ x y, accept x = some y ↔ fits x ∧ y = read x) :
    (o.elim (some none) fun x => (accept x).map some) = some result ↔ (∀ x, o = some x → fits x) ∧ result = o.map read := by
  cases o with
  | none => exact ⟨fun done => ⟨nofun,(Option.some.inj done).symm⟩,fun done => congrArg some done.2.symm⟩
  | some x =>
    simp only [elim_some,map_eq_some_iff,accepts,map_some]
    constructor
    · rintro ⟨_,⟨here,rfl⟩,rfl⟩
      exact ⟨fun _ same => Option.some.inj same ▸ here,rfl⟩
    rintro ⟨here,rfl⟩
    exact ⟨_,⟨here x rfl,rfl⟩,rfl⟩

theorem optional_shown : (o.elim (some none) fun name => (trimmed 160 name).map some) = some result ↔
    (∀ name, o = some name → Shown 160 name) ∧ result = o.map trim := optional_some fun _ _ => trimmed_some

theorem optional_failure {o : Option (Text × Text)} : (o.elim (some none) fun failure => (failureSchema (summary failure.1 failure.2)).map some) = some result ↔
      (∀ failure, o = some failure → Shown 80 failure.1 ∧ Shown 500 failure.2) ∧ result = o.map fun failure => ⟨trim failure.1,trim failure.2⟩ :=
  optional_some fun _ _ => failureSchema_some

def urlMember (platform : Platform) (text : Text) : Option Text :=
  if (platform.parseUrl text).isSome then sized 0 2048 text else none

theorem urlMember_some : urlMember platform text = some result ↔ ((platform.parseUrl text).isSome ∧ text.length ≤ 2048) ∧ result = text := by
  unfold urlMember
  by_cases parsed : (platform.parseUrl text).isSome
  · rw [if_pos parsed,sized_some]
    exact ⟨fun done => ⟨⟨parsed,done.1.2⟩,done.2⟩,fun done => ⟨⟨Nat.zero_le _,done.1.2⟩,done.2⟩⟩
  rw [if_neg parsed]
  exact ⟨nofun,fun done => absurd done.1.1 parsed⟩

theorem optional_review : (o.elim (some none) fun url => (urlMember platform url).map some) = some result ↔
    (∀ url, o = some url → (platform.parseUrl url).isSome ∧ url.length ≤ 2048) ∧ result = o := by
  refine (optional_some fun _ _ => urlMember_some).trans ?_
  rw [Option.map_id']

variable (carries : Carries members f)
include carries

theorem eventSchema_sound (done : eventSchema platform (.object members) = some event)
    (self : ∀ account, subject f.requestedBy = some account → account = f.requestedBy) : Admissible platform f ∧ event = eventOf f := by
  have names := optionalMember_map carries.projectName (textual (trimmed 160))
  have failures := optionalMember_map carries.failure failureSchema
  have reviews := optionalMember_map carries.review (textual (urlMember platform))
  have taskNames := optionalMember_map (o:=some f.taskName) carries.taskName (textual (trimmed 160))
  obtain ⟨_,_,done⟩ := bind_eq_some_iff.mp done
  obtain ⟨_,_,done⟩ := bind_eq_some_iff.mp done
  obtain ⟨_,read,done⟩ := bind_eq_some_iff.mp done
  rw [stringMember_some carries.eventId] at read
  obtain ⟨eventId,rfl⟩ := opaqueId_some.mp read
  obtain ⟨_,read,done⟩ := bind_eq_some_iff.mp done
  rw [stringMember_some carries.type] at read
  obtain ⟨type,rfl⟩ := kept_some.mp read
  obtain ⟨_,read,done⟩ := bind_eq_some_iff.mp done
  rw [stringMember_some carries.occurredAt] at read
  obtain ⟨occurredAt,rfl⟩ := kept_some.mp read
  obtain ⟨_,read,done⟩ := bind_eq_some_iff.mp done
  rw [stringMember_some carries.projectId] at read
  obtain ⟨projectId,rfl⟩ := opaqueId_some.mp read
  obtain ⟨_,read,done⟩ := bind_eq_some_iff.mp done
  rw [names] at read
  obtain ⟨projectName,rfl⟩ := optional_shown.mp read
  obtain ⟨_,read,done⟩ := bind_eq_some_iff.mp done
  rw [stringMember_some carries.taskId] at read
  obtain ⟨taskId,rfl⟩ := opaqueId_some.mp read
  obtain ⟨_,read,done⟩ := bind_eq_some_iff.mp done
  rw [taskNames] at read
  obtain ⟨taskName,rfl⟩ := optional_shown.mp read
  obtain ⟨_,read,done⟩ := bind_eq_some_iff.mp done
  rw [stringMember_some carries.attemptId] at read
  obtain ⟨attemptId,rfl⟩ := opaqueId_some.mp read
  obtain ⟨_,read,done⟩ := bind_eq_some_iff.mp done
  rw [stringMember_some carries.requestedBy] at read
  have requestedBy := read
  cases self _ read
  obtain ⟨_,read,done⟩ := bind_eq_some_iff.mp done
  rw [stringMember_some carries.status] at read
  obtain ⟨status,rfl⟩ := trimmed_some.mp read
  obtain ⟨_,read,done⟩ := bind_eq_some_iff.mp done
  rw [failures] at read
  obtain ⟨failure,rfl⟩ := optional_failure.mp read
  obtain ⟨_,read,done⟩ := bind_eq_some_iff.mp done
  obtain ⟨review,rfl⟩ := optional_review.mp (reviews.symm.trans read)
  obtain ⟨_,_,done⟩ := bind_eq_some_iff.mp done
  exact ⟨⟨eventId,type,occurredAt,projectId,projectName,taskId,taskName f.taskName rfl,attemptId,requestedBy,status,failure,review⟩,
    (Option.some.inj done).symm⟩

theorem eventSchema_complete (fits : Admissible platform f) (complete : completed (eventOf f)) : eventSchema platform (.object members) = some (eventOf f) := by
  have names := optionalMember_map carries.projectName (textual (trimmed 160))
  have failures := optionalMember_map carries.failure failureSchema
  have reviews := optionalMember_map carries.review (textual (urlMember platform))
  have taskNames := optionalMember_map (o:=some f.taskName) carries.taskName (textual (trimmed 160))
  refine bind_eq_some_iff.mpr ⟨(),by rw [carries.strict]; rfl,?_⟩
  refine bind_eq_some_iff.mpr ⟨(),by rw [carries.schemaVersion]; rfl,?_⟩
  refine bind_eq_some_iff.mpr ⟨_,(stringMember_some carries.eventId _).trans fits.eventId.read,?_⟩
  refine bind_eq_some_iff.mpr ⟨_,(stringMember_some carries.type _).trans (kept_some.mpr ⟨fits.type,rfl⟩),?_⟩
  refine bind_eq_some_iff.mpr ⟨_,(stringMember_some carries.occurredAt _).trans (kept_some.mpr ⟨fits.occurredAt,rfl⟩),?_⟩
  refine bind_eq_some_iff.mpr ⟨_,(stringMember_some carries.projectId _).trans fits.projectId.read,?_⟩
  refine bind_eq_some_iff.mpr ⟨_,names.trans (optional_shown.mpr ⟨fits.projectName,rfl⟩),?_⟩
  refine bind_eq_some_iff.mpr ⟨_,(stringMember_some carries.taskId _).trans fits.taskId.read,?_⟩
  refine bind_eq_some_iff.mpr ⟨_,taskNames.trans (optional_shown.mpr ⟨fun _ same => Option.some.inj same ▸ fits.taskName,rfl⟩),?_⟩
  refine bind_eq_some_iff.mpr ⟨_,(stringMember_some carries.attemptId _).trans fits.attemptId.read,?_⟩
  refine bind_eq_some_iff.mpr ⟨_,(stringMember_some carries.requestedBy _).trans fits.requestedBy,?_⟩
  refine bind_eq_some_iff.mpr ⟨_,(stringMember_some carries.status _).trans (trimmed_some.mpr ⟨fits.status,rfl⟩),?_⟩
  refine bind_eq_some_iff.mpr ⟨_,failures.trans (optional_failure.mpr ⟨fits.failure,rfl⟩),?_⟩
  refine bind_eq_some_iff.mpr ⟨_,reviews.trans (optional_review.mpr ⟨fits.review,rfl⟩),?_⟩
  refine bind_eq_some_iff.mpr ⟨(),?_,rfl⟩
  exact if_pos complete
end LedgeTopOps.ViewerPayloadAgreement
