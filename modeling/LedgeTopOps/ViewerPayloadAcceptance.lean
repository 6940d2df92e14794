import LedgeTopOps.ViewerPayloadAgreement

namespace LedgeTopOps.ViewerPayloadAcceptance
open List hiding after
open JsonText ViewerPayloads ViewerIntake ViewerPayloadAgreement
open Option (elim_none elim_some)

theorem failedEventId_shape (attempt : Uuid) : opaqueText (failedEventId attempt) :=
  opaqueText_append (by decide +kernel) (opaqueText_units attempt.shape)

theorem failedEventId_length (attempt : Uuid) : (failedEventId attempt).length = 54 := by
  rw [failedEventId,length_append,attempt.length]
  rfl

theorem retriedEventId_known (attempt : Uuid) (retries : Retries) :
    opaqueText (retriedEventId attempt retries) ∧ 54 ≤ (retriedEventId attempt retries).length ∧ (retriedEventId attempt retries).length ≤ 77 := by
  unfold retriedEventId
  split
  · rw [failedEventId_length]
    exact ⟨failedEventId_shape attempt,by omega,by omega⟩
  have digits : (decimal retries.count).length ≤ 16 := decimal_length_le (by decide) (by have safe := retries.safe; omega)
  have infix_ : ∀ c ∈ ascii "-retry-", opaqueUnit c := all_eq_true.mp (by decide +kernel)
  have seven : (ascii "-retry-").length = 7 := rfl
  rw [length_append,length_append,failedEventId_length,seven]
  exact ⟨opaqueText_append (opaqueText_append (failedEventId_shape attempt) infix_) (decimal_ids _),by omega,by omega⟩

theorem eventId_known (attempt : Uuid) (notice : Notice) :
    opaqueText (Notice.eventId attempt notice) ∧ 16 ≤ (Notice.eventId attempt notice).length ∧ (Notice.eventId attempt notice).length ≤ 77 := by
  cases notice with
  | job =>
    rw [Notice.eventId,failedEventId_length]
    exact ⟨failedEventId_shape attempt,by omega,by omega⟩
  | derivative retries | exhausted retries =>
    obtain ⟨shape,least,most⟩ := retriedEventId_known attempt retries
    exact ⟨shape,by rw [Notice.eventId]; omega,most⟩
  | ready =>
    have lead : (ascii "processing-ready-").length = 17 := rfl
    rw [Notice.eventId,length_append,attempt.length,lead]
    exact ⟨opaqueText_append (by decide +kernel) (opaqueText_units attempt.shape),by omega,by omega⟩

theorem keyUnit_ids (unit : opaqueUnit c) : keyUnit c := by
  simp only [keyUnit]
  rcases opaqueUnit_cases unit with letters | digits | rfl | rfl
  · simp only [letters,Bool.true_or]
  · simp only [digits,Bool.true_or,Bool.or_true]
  · decide
  decide

theorem idempotencyKey_ids (shape : opaqueText text) (least : 16 ≤ text.length) (most : text.length ≤ 128) : idempotencyKey text = some text := by
  have units : text.all keyUnit := all_eq_true.mpr fun c inside => keyUnit_ids (opaqueText_units shape c inside)
  have starts : text.head?.any (fun c => letter c || numeric c) := by
    cases text with
    | nil => cases shape
    | cons =>
      simp only [opaqueText,Bool.and_eq_true] at shape
      exact shape.1
  rw [idempotencyKey,starts,units]
  exact sized_some.mpr ⟨⟨least,most⟩,rfl⟩

theorem enqueueEvent_stored {id eventId : Text} (stored : enqueueEvent randomUUID outbox type draft = .ok (id,after))
    (named : textOf (member draft "eventId") = eventId) (some_ : eventId ≠ []) (found : after.find? (fun row => row.id = id) = some row) :
    row.id = eventId ∧ row.payload = stringify (.object (settled (clean eventId draft))) := by
  have same := find?_some found
  simp only [enqueueEvent,named,some_,if_false] at stored
  split at stored
  · cases stored
  cases present : outbox.find? fun row => decide (row.id = eventId) with
  | none =>
    simp only [present,elim_none,Except.ok.injEq,Prod.mk.injEq] at stored
    obtain ⟨rfl,rfl⟩ := stored
    rw [find?_append,present,Option.none_or,List.find?_singleton] at found
    split at found
    · cases found
      exact ⟨rfl,rfl⟩
    cases found
  | some =>
    simp only [present,elim_some] at stored
    split at stored
    · cases stored
    next equal =>
    cases stored
    rw [present] at found
    cases found
    exact ⟨of_decide_eq_true same,by_contra fun other => equal (.inl other)⟩

theorem enqueueEvent_fresh (named : textOf (member draft "eventId") = eventId) (some_ : eventId ≠ [])
    (small : utf8Length (stringify (.object (settled (clean eventId draft)))) ≤ 64 * 1024)
    (absent : (outbox.find? fun row => row.id = eventId) = none) : enqueueEvent randomUUID outbox type draft =
      .ok (eventId,outbox++[⟨eventId,type,stringify (.object (settled (clean eventId draft)))⟩]) := by
  simp only [enqueueEvent,named,some_,if_false,Nat.not_lt.mpr small,absent,elim_none]

theorem created_name (created : createProject randomUUID taken input = .ok project) : trim project.displayName ≠ [] ∧ project.displayName.length ≤ 240 := by
  unfold createProject at created
  dsimp only at created
  split at created
  · cases created
  next filled =>
  split at created
  · cases created
  cases created
  refine ⟨fun blank => ?_,length_take_le _ _⟩
  have empty : trim input.displayName = [] := (trim_cut (k:=239)).mp blank
  exact filled (by rw [bounded,empty]; rfl)

theorem drafted_name (drafted : createTask randomUUID matching project input = .ok task) : task.projectId = project.id ∧ task.displayName.length ≤ 240 := by
  unfold createTask at drafted
  split at drafted
  · cases drafted
  cases drafted
  exact ⟨rfl,length_take_le _ _⟩

theorem Work.names (work : Work) : trim work.project.displayName ≠ [] ∧ work.project.displayName.length ≤ 240 ∧
    work.task.projectId = work.project.id ∧ work.task.displayName.length ≤ 240 := by
  obtain ⟨_,_,_,created⟩ := work.created
  obtain ⟨_,_,_,drafted⟩ := work.drafted
  exact ⟨(created_name created).1,(created_name created).2,drafted_name drafted⟩

theorem finalCode_shown (code : Text) : Shown 80 (finalCode code) ↔ trim code ≠ [] := by
  have short : (trim (finalCode code)).length ≤ 80 := (trim_length_le _).trans (length_take_le _ _)
  have blank : trim (finalCode code) = [] ↔ trim code = [] := by
    have outer : trim (bounded (bounded code 80) 80) = [] ↔ trim (bounded code 80) = [] := trim_cut
    have inner : trim (bounded code 80) = [] ↔ trim code = [] := trim_cut
    exact outer.trans inner
  constructor
  · intro shown empty
    have least := shown.1
    rw [blank.mpr empty] at least
    cases least
  intro filled
  refine ⟨?_,short⟩
  exact length_pos_iff.mpr fun empty => filled (blank.mp empty)

structure Circumstances (platform : Platform) (env : OpsEnv) (config : ViewerConfig) (base : Url) (emittedAt signedAt receivedAt : Nat) : Prop where
  keys : env.secretOf config.key.id = some config.key.secret
  publicBase : platform.parseUrl env.publicBaseUrl = some base
  https : base.protocol = ascii "https:"
  origin : base.origin = config.opsBaseUrl
  clocks : apart (receivedAt / 1000) (signedAt / 1000) ≤ clockSkewSeconds
  day : apart receivedAt emittedAt ≤ dayMilliseconds

structure Documented (platform : Platform) (config : ViewerConfig) (work : Work) (notice : Notice) (emittedAt : Nat) : Prop where
  digest : ∀ text, repeated 64 64 lowerHex (platform.sha256 text) = true
  signature : ∀ secret text, repeated 43 88 base64Unit (platform.hmac secret text) = true
  verifies : ∀ secret text, platform.verify secret text (platform.hmac secret text) = true
  json : ∀ draft, payload config.opsBaseUrl (platform.isoString emittedAt) work notice = some draft →
    platform.parse (stringify (.object (settled (clean (Notice.eventId work.attempt.id notice) draft)))) =
      some (.object (settled (clean (Notice.eventId work.attempt.id notice) draft)))
  datetime : platform.datetime (platform.isoString emittedAt) = true
  isoLength : (platform.isoString emittedAt).length = 24
  dateParse : platform.dateParse (platform.isoString emittedAt) = some emittedAt
  url : platform.parseUrl (reviewed config.opsBaseUrl work.attempt.id) =
    some ⟨ascii "https:",[],[],config.opsBaseUrl,ascii "/operations/processing",ascii "?attemptId="++work.attempt.id.text,[]⟩

def Notice.reported : Notice → Option (Text × Text)
  | .job _ code message | .derivative _ code message => some (code,message)
  | _ => none

structure Meets (config : ViewerConfig) (base : Url) (work : Work) (notice : Notice) (signedAt : Nat) : Prop where
  project : Opaque work.project.id
  projectName : Notice.purged notice = false → (trim work.project.displayName).length ≤ 160
  task : Opaque work.task.id
  taskName : Shown 160 work.task.displayName
  failure : ∀ code message, Notice.reported notice = some (code,message) → trim code ≠ [] ∧ Shown 500 (finalMessage message)
  review : notice = .ready → base.username = [] ∧ base.password = [] ∧ config.opsBaseUrl.length ≤ 1979
  clock : 1000000000 ≤ signedAt / 1000 ∧ signedAt / 1000 < 10000000000

theorem timestamp_shape (seconds : Nat) : repeated 10 10 numeric (decimal seconds) ↔ 1000000000 ≤ seconds ∧ seconds < 10000000000 := by
  have digits : (decimal seconds).all numeric := all_eq_true.mpr (decimal_units seconds)
  have long := decimal_length_iff (n:=seconds) (k:=8)
  rw [repeated,digits,Bool.and_true,Bool.and_eq_true,decide_eq_true_eq,decide_eq_true_eq]
  norm_num at long
  omega

theorem nonce_shape (nonce : Nonce) : repeated 16 128 nonceUnit nonce.text := by
  have units : nonce.text.all nonceUnit := all_eq_true.mpr fun c inside => by
    have shape := nonce.shape c inside
    simp only [base64Unit,Bool.or_eq_true,unitIn_iff] at shape
    rcases shape with (letters | digits) | other
    · simp only [nonceUnit,letters,Bool.true_or]
    · simp only [nonceUnit,digits,Bool.true_or,Bool.or_true]
    have two : c ∈ [(0x2D : UInt16),0x5F] := other
    simp only [mem_cons,not_mem_nil,or_false] at two
    rcases two with rfl | rfl
    · decide
    decide
  rw [repeated,units,nonce.long]
  rfl

theorem fixed_shown : ∀ text ∈ ["ready_for_review","failed","derivative_timeout","derivative_retry_exhausted",
      "derivative wall-clock deadline expired","derivative lease retry limit exhausted"],
    1 ≤ (trim (ascii text)).length ∧ (trim (ascii text)).length ≤ 80 := by decide +kernel

theorem eventType_listed (notice : Notice) : eventTypes.contains (eventType notice) := by
  have listed : eventTypes.contains (ascii "processing.ready_for_review") ∧ eventTypes.contains (ascii "processing.failed") := by
    decide +kernel
  cases notice with
  | ready => exact listed.1
  | _ => exact listed.2

theorem status_shown (notice : Notice) : Shown 80 (Notice.status notice) := by
  cases notice with
  | ready => exact fixed_shown "ready_for_review" (by simp)
  | _ => exact fixed_shown "failed" (by simp)

theorem exhausted_shown (retries : Retries) (failed : Notice.failure (.exhausted retries timedOut) = some pair) : Shown 80 pair.1 ∧ Shown 500 pair.2 := by
  cases failed
  cases timedOut with
  | true =>
    have code := fixed_shown "derivative_timeout" (by simp)
    have message := fixed_shown "derivative wall-clock deadline expired" (by simp)
    exact ⟨code,message.1,message.2.trans (by decide)⟩
  | false =>
    have code := fixed_shown "derivative_retry_exhausted" (by simp)
    have message := fixed_shown "derivative lease retry limit exhausted" (by simp)
    exact ⟨code,message.1,message.2.trans (by decide)⟩

theorem bind_ok {next : α → Except ε β} : (x >>= next) = .ok result ↔ ∃ a, x = .ok a ∧ next a = .ok result := by
  cases x with
  | error => exact ⟨nofun,fun ⟨_,done,_⟩ => nomatch done⟩
  | ok a => exact ⟨fun done => ⟨a,rfl,done⟩,fun ⟨_,same,done⟩ => Except.ok.inj same ▸ done⟩

theorem boundedBody_ok : boundedBody request = .ok body ↔
    (request.contentLength ≤ maxEventBytes ∧ utf8Length request.body ≤ maxEventBytes) ∧ body = request.body := by
  unfold boundedBody
  by_cases declared : maxEventBytes < request.contentLength
  · rw [if_pos declared]
    exact ⟨nofun,fun done => absurd done.1.1 (Nat.not_le.mpr declared)⟩
  rw [if_neg declared]
  by_cases sent : maxEventBytes < utf8Length request.body
  · rw [if_pos sent]
    exact ⟨nofun,fun done => absurd done.1.2 (Nat.not_le.mpr sent)⟩
  rw [if_neg sent]
  exact ⟨fun done => ⟨⟨Nat.not_lt.mp declared,Nat.not_lt.mp sent⟩,(Except.ok.inj done).symm⟩,fun done => congrArg Except.ok done.2.symm⟩

theorem elim_ok {refusal : Answer α} (refused : ∀ a, refusal ≠ .ok a) : o.elim refusal .ok = .ok a ↔ o = some a := by
  cases o with
  | none => exact ⟨fun done => absurd done (refused a),nofun⟩
  | some => exact ⟨fun done => congrArg some (Except.ok.inj done),fun done => congrArg Except.ok (Option.some.inj done)⟩

section
variable (given : Circumstances platform env config base emittedAt signedAt receivedAt) (documented : Documented platform config work notice emittedAt)

include given documented in
theorem signature_accepted (nonce : Nonce) (row : Row) (kept : transmit row.payload = row.payload) :
    verifyEventSignature platform env receivedAt (deliverOneEvent platform config signedAt nonce row) row.payload = .ok () ↔
      1000000000 ≤ signedAt / 1000 ∧ signedAt / 1000 < 10000000000 := by
  have long : ¬config.key.secret.length < 32 := by have known := config.key.long; omega
  have clocks := given.clocks
  simp only [verifyEventSignature,deliverOneEvent,given.keys,elim_some,long,if_false,nonce_shape,kept,documented.digest,
    documented.signature,documented.verifies,Bool.and_true,numeral_decimal,ne_eq,not_true_eq_false]
  rw [←timestamp_shape]
  cases shape : repeated 10 10 numeric (decimal (signedAt / 1000)) with
  | false =>
    exact ⟨nofun,nofun⟩
  | true =>
    simp only [Bool.not_true,Bool.false_eq_true,if_false,Nat.not_lt.mpr clocks,if_true]

include documented in
theorem fields_admissible : Admissible platform (fields config.opsBaseUrl (platform.isoString emittedAt) work notice) ↔
    Opaque work.project.id ∧ (Notice.purged notice = false → (trim work.project.displayName).length ≤ 160) ∧ Opaque work.task.id ∧
      Shown 160 work.task.displayName ∧ (∀ code message, Notice.reported notice = some (code,message) → trim code ≠ [] ∧ Shown 500 (finalMessage message)) ∧
      (notice = .ready → config.opsBaseUrl.length ≤ 1979) := by
  obtain ⟨named,_,projectId,_⟩ := Work.names work
  have known := eventId_known work.attempt.id notice
  have url := documented.url
  have long : (reviewed config.opsBaseUrl work.attempt.id).length = config.opsBaseUrl.length + 69 := by
    have path : (ascii "/operations/processing?attemptId=").length = 33 := rfl
    rw [reviewed,length_append,length_append,work.attempt.id.length,path]
  constructor
  · intro fits
    refine ⟨projectId ▸ fits.projectId,fun shown => ?_,fits.taskId,fits.taskName,fun code message reported => ?_,fun ready => ?_⟩
    · exact (fits.projectName work.project.displayName (by simp only [fields,shown,Bool.false_eq_true,if_false])).2
    · have failed : Notice.failure notice = some (finalCode code,finalMessage message) := by
        cases notice with
        | job | derivative => cases reported; rfl
        | exhausted | ready => cases reported
      obtain ⟨first,second⟩ := fits.failure _ failed
      exact ⟨(finalCode_shown code).mp first,second⟩
    have bound := (fits.review (reviewed config.opsBaseUrl work.attempt.id) (by rw [ready]; rfl)).2
    omega
  rintro ⟨project,projectName,task,taskName,failure,review⟩
  have drafted : Opaque work.task.projectId := projectId ▸ project
  refine ⟨⟨known.1,by have most := known.2.2; simp only [fields]; omega⟩,eventType_listed notice,documented.datetime,drafted,fun name shown => ?_,task,taskName,
    ⟨work.attempt.id.shape,by simp only [fields]; rw [work.attempt.id.length]; decide⟩,Subject.read _,status_shown notice,fun pair failed => ?_,fun text reviewing => ?_⟩
  · simp only [fields] at shown
    split at shown
    · cases shown
    next kept =>
    cases shown
    exact ⟨length_pos_iff.mpr named,projectName (Bool.not_eq_true _ ▸ kept)⟩
  · cases notice with
    | job _ code message | derivative _ code message =>
      cases failed
      obtain ⟨filled,shown⟩ := failure code message rfl
      exact ⟨(finalCode_shown code).mpr filled,shown⟩
    | exhausted retries => exact exhausted_shown retries failed
    | ready => cases failed
  cases notice with
  | ready =>
    cases reviewing
    have bound := review rfl
    rw [url,long]
    exact ⟨rfl,by omega⟩
  | _ => cases reviewing

theorem fields_complete (notice : Notice) : completed (eventOf (fields opsBaseUrl occurredAt work notice)) := by
  have apart : (ascii "processing.failed" = ascii "processing.ready_for_review") = False := eq_false (by decide +kernel)
  have other : (ascii "processing.ready_for_review" = ascii "processing.failed") = False := eq_false (by decide +kernel)
  cases notice with
  | ready =>
    have solid : reviewed opsBaseUrl work.attempt.id ≠ [] := by
      intro empty
      have long := congrArg length empty
      rw [reviewed,length_append,work.attempt.id.length] at long
      cases long
    simp only [completed,fields,eventOf,eventType,Notice.review,other,decide_false,Bool.false_and,Bool.not_false,Bool.true_and,Option.any_some,
      ne_eq,solid,not_false_eq_true,decide_true,Bool.not_true,Bool.and_false]
  | _ =>
    simp only [completed,fields,eventOf,eventType,Notice.failure,apart,decide_false,Bool.false_and,Bool.not_false,Bool.and_true,Option.map_some,
      Option.isNone_some,Bool.and_false]

include given documented in
theorem review_accepted : (∃ url, validateReviewUrl platform env (fields config.opsBaseUrl (platform.isoString emittedAt) work notice).review
      work.attempt.id.text = .ok url) ↔ (notice = .ready → base.username = [] ∧ base.password = []) := by
  have encoded := encodeURIComponent_ids (opaqueText_units work.attempt.id.shape)
  cases notice with
  | ready =>
    have solid : reviewed config.opsBaseUrl work.attempt.id ≠ [] := by
      intro empty
      have long := congrArg length empty
      rw [reviewed,length_append,work.attempt.id.length] at long
      cases long
    have present : (some (reviewed config.opsBaseUrl work.attempt.id)).filter (· ≠ []) = some (reviewed config.opsBaseUrl work.attempt.id) := by
      rw [Option.filter_some,if_pos (decide_eq_true solid)]
    simp only [fields,Notice.review,validateReviewUrl,present,elim_some,given.publicBase,documented.url,encoded,given.https,given.origin,
      ne_eq,not_true_eq_false,false_or,or_false,forall_const]
    by_cases bare : base.username = [] ∧ base.password = []
    · refine ⟨fun _ => bare,fun _ => ⟨_,if_neg ?_⟩⟩
      rw [←not_and_or,not_not]
      exact bare
    rw [if_pos (by rw [←not_and_or]; exact bare)]
    exact ⟨fun done => (by obtain ⟨_,done⟩ := done; cases done),fun both => absurd both bare⟩
  | _ =>
    refine ⟨?_,fun _ => ⟨none,rfl⟩⟩
    intro _ ready
    cases ready

-- The values of a payload that meets the conditions fit into the limit.
include documented in
theorem fields_bytes (project : Opaque work.project.id) (task : Opaque work.task.id) (review : notice = .ready → config.opsBaseUrl.length ≤ 1979) :
    2 + (fields config.opsBaseUrl (platform.isoString emittedAt) work notice).bytes ≤ maxEventBytes := by
  obtain ⟨_,projectShort,projectId,taskShort⟩ := Work.names work
  have known := eventId_known work.attempt.id notice
  have eventId := string_plain_bytes (opaqueText_plain known.1)
  have projectBytes := string_plain_bytes (opaqueText_plain project.1)
  have taskBytes := string_plain_bytes (opaqueText_plain task.1)
  have attempt := string_plain_bytes (opaqueText_plain work.attempt.id.shape)
  have subject := string_plain_bytes (Subject.plain work.attempt.createdBy)
  have subjectLong : work.attempt.createdBy.text.length ≤ 132 := by
    have short := work.attempt.createdBy.short
    have four : (ascii "ops:").length = 4 := rfl
    rw [Subject.text,length_append,four]
    omega
  have clock := string_bytes (platform.isoString emittedAt)
  have projectName := string_bytes work.project.displayName
  have taskName := string_bytes work.task.displayName
  have uuid := work.attempt.id.length
  have iso := documented.isoLength
  have projectLong := project.2
  have taskLong := task.2
  rw [←projectId] at projectBytes projectLong
  have type : valueBytes (eventType notice) ≤ 29 := by
    cases notice with
    | ready => decide +kernel
    | _ => exact (by decide +kernel : valueBytes (ascii "processing.failed") ≤ 29)
  have status : valueBytes (Notice.status notice) ≤ 18 := by
    cases notice with
    | ready => decide +kernel
    | _ => exact (by decide +kernel : valueBytes (ascii "failed") ≤ 18)
  have name : ((if Notice.purged notice then none else some work.project.displayName).elim 0 fun name => 22 + valueBytes name) ≤ 1464 := by
    cases Notice.purged notice with
    | true => exact Nat.zero_le _
    | false =>
      simp only [Bool.false_eq_true,if_false,elim_some,valueBytes]
      omega
  -- A notice has a failure summary or a review URL, never both.
  have rest : ((Notice.failure notice).elim 0 fun failure => 68 + valueBytes failure.1 + valueBytes failure.2) +
      ((Notice.review config.opsBaseUrl work.attempt.id notice).elim 0 fun url => 22 + valueBytes url) ≤ 12312 := by
    cases notice with
    | job _ code message | derivative _ code message =>
      have first := string_bytes (finalCode code)
      have second := string_bytes (finalMessage message)
      have short : (finalCode code).length ≤ 80 := length_take_le _ _
      have long : (finalMessage message).length ≤ 1000 := length_take_le _ _
      simp only [Notice.failure,Notice.review,elim_some,elim_none,valueBytes]
      omega
    | exhausted retries timedOut =>
      have small : ∀ failure, Notice.failure (.exhausted retries timedOut) = some failure → 68 + valueBytes failure.1 + valueBytes failure.2 ≤ 200 := by
        rintro _ ⟨⟩
        cases timedOut with
        | true => exact (by decide +kernel : 68 + valueBytes (ascii "derivative_timeout") +
            valueBytes (ascii "derivative wall-clock deadline expired") ≤ 200)
        | false => exact (by decide +kernel : 68 + valueBytes (ascii "derivative_retry_exhausted") +
            valueBytes (ascii "derivative lease retry limit exhausted") ≤ 200)
      exact (small _ rfl).trans (by decide)
    | ready =>
      have url := string_bytes (reviewed config.opsBaseUrl work.attempt.id)
      have path : (ascii "/operations/processing?attemptId=").length = 33 := rfl
      have long : (reviewed config.opsBaseUrl work.attempt.id).length = config.opsBaseUrl.length + 69 := by
        rw [reviewed,length_append,length_append,work.attempt.id.length,path]
      have short := review rfl
      simp only [Notice.failure,Notice.review,elim_some,elim_none,valueBytes]
      omega
  simp only [fields,Fields.bytes,valueBytes,maxEventBytes] at name type status rest ⊢
  omega
end

-- Of all that the outbox stores, the intake takes exactly what meets the conditions.
theorem notices_accepted {id : Text} (given : Circumstances platform env config base emittedAt signedAt receivedAt)
    (documented : Documented platform config work notice emittedAt) (nonce : Nonce)
    (stored : emit config.opsBaseUrl (platform.isoString emittedAt) randomUUID outbox work notice = .ok (id,after))
    (found : after.find? (fun row => row.id = id) = some row) :
    (∃ result, intake platform env receivedAt (deliverOneEvent platform config signedAt nonce row) = .ok result) ↔ Meets config base work notice signedAt := by
  obtain ⟨draft,built,named,holds⟩ : ∃ draft, payload config.opsBaseUrl (platform.isoString emittedAt) work notice = some draft ∧
      textOf (member draft "eventId") = Notice.eventId work.attempt.id notice ∧
      Holds (settled (clean (Notice.eventId work.attempt.id notice) draft)) (fields config.opsBaseUrl (platform.isoString emittedAt) work notice) :=
    payload_holds notice
  have known := eventId_known work.attempt.id notice
  have solid : Notice.eventId work.attempt.id notice ≠ [] := by
    intro empty
    have least := known.2.1
    rw [empty] at least
    cases least
  simp only [emit,built,elim_some] at stored
  obtain ⟨rowId,rowPayload⟩ := enqueueEvent_stored stored named solid found
  have kept : transmit row.payload = row.payload := by
    rw [rowPayload]
    exact transmit_stringify _
  have parsed := documented.json draft built
  rw [←rowPayload] at parsed
  have verifies := signature_accepted given documented nonce row kept
  have reviewing := review_accepted given documented
  have admissible := fields_admissible documented
  have key : idempotencyKey row.id = some (Notice.eventId work.attempt.id notice) := by
    rw [rowId]
    exact idempotencyKey_ids known.1 known.2.1 (known.2.2.trans (by decide))
  have self : ∀ account, subject work.attempt.createdBy.text = some account → account = work.attempt.createdBy.text := fun account done =>
    Option.some.inj (done.symm.trans (Subject.read _))
  constructor
  · rintro ⟨_,done⟩
    obtain ⟨body,bounded,done⟩ := bind_ok.mp done
    obtain ⟨_,rfl⟩ := boundedBody_ok.mp bounded
    obtain ⟨_,verified,done⟩ := bind_ok.mp done
    obtain ⟨_,read,done⟩ := bind_ok.mp done
    obtain ⟨_,schema,done⟩ := bind_ok.mp done
    have body : (deliverOneEvent platform config signedAt nonce row).body = row.payload := kept
    rw [body] at verified read
    have json := (elim_ok (by simp [refuse])).mp read
    rw [parsed] at json
    cases json
    obtain ⟨fits,rfl⟩ := eventSchema_sound holds.carries ((elim_ok (by simp [refuse])).mp schema) self
    split at done
    · cases done
    split at done
    · cases done
    obtain ⟨project,projectName,task,taskName,failure,review⟩ := admissible.mp fits
    have url : ∃ url, validateReviewUrl platform env (fields config.opsBaseUrl (platform.isoString emittedAt) work notice).review
        work.attempt.id.text = .ok url := by
      cases answer : validateReviewUrl platform env (fields config.opsBaseUrl (platform.isoString emittedAt) work notice).review
          work.attempt.id.text with
      | error e =>
        have same : validateReviewUrl platform env (eventOf (fields config.opsBaseUrl (platform.isoString emittedAt) work notice)).reviewUrl
          (eventOf (fields config.opsBaseUrl (platform.isoString emittedAt) work notice)).attemptId = .error e := answer
        rw [same] at done
        cases done
      | ok url => exact ⟨url,rfl⟩
    have bare := reviewing.mp url
    exact ⟨project,projectName,task,taskName,failure,fun ready => ⟨(bare ready).1,(bare ready).2,review ready⟩,verifies.mp verified⟩
  intro meets
  have fits := admissible.mpr ⟨meets.project,meets.projectName,meets.task,meets.taskName,meets.failure,fun ready => (meets.review ready).2.2⟩
  have small := fields_bytes documented meets.project meets.task fun ready => (meets.review ready).2.2
  have body := holds.body
  rw [←rowPayload] at body
  have bounded : utf8Length row.payload ≤ maxEventBytes := body.trans small
  obtain ⟨url,reviewed⟩ := reviewing.mpr fun ready => ⟨(meets.review ready).1,(meets.review ready).2.1⟩
  refine ⟨(eventOf (fields config.opsBaseUrl (platform.isoString emittedAt) work notice),url),?_⟩
  refine bind_ok.mpr ⟨row.payload,boundedBody_ok.mpr ⟨⟨?_,?_⟩,kept.symm⟩,?_⟩
  · simp only [deliverOneEvent,kept]
    exact bounded
  · simp only [deliverOneEvent,kept]
    exact bounded
  refine bind_ok.mpr ⟨(),verifies.mpr meets.clock,?_⟩
  refine bind_ok.mpr ⟨_,(elim_ok (by simp [refuse])).mpr parsed,?_⟩
  refine bind_ok.mpr ⟨_,(elim_ok (by simp [refuse])).mpr (eventSchema_complete holds.carries fits (fields_complete notice)),?_⟩
  have time : platform.dateParse (eventOf (fields config.opsBaseUrl (platform.isoString emittedAt) work notice)).occurredAt = some emittedAt :=
    documented.dateParse
  have near : (some emittedAt).any (fun time => decide (apart receivedAt time ≤ dayMilliseconds)) = true := decide_eq_true given.day
  have answer : validateReviewUrl platform env (eventOf (fields config.opsBaseUrl (platform.isoString emittedAt) work notice)).reviewUrl
      (eventOf (fields config.opsBaseUrl (platform.isoString emittedAt) work notice)).attemptId = .ok url := reviewed
  rw [if_neg (by rw [not_not]; exact key),time,near,if_neg (by decide),answer]
  rfl

def exampleWork : Work :=
  { project := ⟨ascii "north-quarry",ascii "North quarry"⟩
    task := ⟨ascii "spring-flight",ascii "north-quarry",ascii "Spring flight"⟩
    attempt :=
      { id :=
          { timeLow := ⟨ascii "5b1f3c2a",rfl,all_eq_true.mp (by decide +kernel)⟩
            timeMid := ⟨ascii "7d4e",rfl,all_eq_true.mp (by decide +kernel)⟩
            timeHigh := ⟨ascii "4a6b",rfl,all_eq_true.mp (by decide +kernel)⟩
            clock := ⟨ascii "9c8d",rfl,all_eq_true.mp (by decide +kernel)⟩
            node := ⟨ascii "0e1f2a3b4c5d",rfl,all_eq_true.mp (by decide +kernel)⟩ }
        createdBy := ⟨ascii "staff-7",by decide +kernel,by decide +kernel⟩ }
    created := ⟨[],false,⟨ascii "north-quarry",ascii " North quarry"⟩,by rfl⟩
    drafted := ⟨[],true,⟨ascii "spring-flight",ascii "Spring flight"⟩,by rfl⟩ }

def exampleNotice (message : Text) : Notice := .job false (ascii "processing_failed") message

def exampleConfig : ViewerConfig :=
  ⟨⟨ascii "viewer-v1",ascii "viewer-event-secret-0123456789ab",by decide +kernel⟩,ascii "https://ops.ledgetopdroneservices.com"⟩

def exampleEnv : OpsEnv :=
  ⟨ascii "https://ops.ledgetopdroneservices.com",some (ascii "viewer-v1"),some (ascii "viewer-event-secret-0123456789ab"),none,none⟩

def exampleBase : Url := ⟨ascii "https:",[],[],ascii "https://ops.ledgetopdroneservices.com",ascii "/",[],[]⟩

def exampleUrl (text : Text) : Url :=
  if text = ascii "https://ops.ledgetopdroneservices.com" then exampleBase else
  ⟨ascii "https:",[],[],ascii "https://ops.ledgetopdroneservices.com",ascii "/operations/processing", ascii "?attemptId="++exampleWork.attempt.id.text,[]⟩

def exampleClock : Text := ascii "2026-09-21T14:13:20.000Z"

def exampleMembers (message : Text) : Members :=
  settled (clean (failedEventId exampleWork.attempt.id)
    (failJobTerminal exampleClock (ascii "processing_failed") message (terminalEvent exampleWork false)))

def exampleRow (message : Text) : Row :=
  ⟨failedEventId exampleWork.attempt.id,ascii "processing.failed",stringify (.object (exampleMembers message))⟩

def exampleNonce : Nonce := ⟨ascii "AbCdEfGhIjKlMnOpQrStUvWxYz012345",rfl,all_eq_true.mp (by decide +kernel)⟩

def examplePlatform (message digest signature : Text) : Platform :=
  { sha256 := fun _ => digest
    hmac := fun _ _ => signature
    verify := fun _ _ supplied => supplied == signature
    parse := fun _ => some (.object (exampleMembers message))
    isoString := fun _ => exampleClock
    datetime := fun text => text == exampleClock
    dateParse := fun _ => some 1790000000000
    parseUrl := fun text => some (exampleUrl text) }

theorem example_given (message digest signature : Text) :
    Circumstances (examplePlatform message digest signature) exampleEnv exampleConfig exampleBase 1790000000000 1790000000000 1790000001000 :=
  { keys := by decide +kernel
    publicBase := congrArg some (if_pos rfl)
    https := rfl
    origin := rfl
    clocks := by decide
    day := by decide }

theorem example_documented (digested : repeated 64 64 lowerHex digest) (signed : repeated 43 88 base64Unit signature) :
    Documented (examplePlatform message digest signature) exampleConfig exampleWork (exampleNotice message) 1790000000000 where
  digest _ := digested
  signature _ _ := signed
  verifies _ _ := beq_self_eq_true signature
  json draft built := by cases built; rfl
  datetime := beq_self_eq_true exampleClock
  isoLength := (by decide +kernel : exampleClock.length = 24)
  dateParse := rfl
  url := congrArg some (if_neg (by decide +kernel))

theorem example_stored (message : Text) (small : utf8Length (stringify (.object (exampleMembers message))) ≤ 64 * 1024) :
    emit exampleConfig.opsBaseUrl exampleClock [] [] exampleWork (exampleNotice message) =
      .ok (failedEventId exampleWork.attempt.id,[exampleRow message])  := by
  have built : payload exampleConfig.opsBaseUrl exampleClock exampleWork (exampleNotice message) =
      some (failJobTerminal exampleClock (ascii "processing_failed") message (terminalEvent exampleWork false)) := rfl
  rw [emit,built,elim_some]
  exact enqueueEvent_fresh rfl (by decide +kernel) small rfl

theorem notices_accepted_example : ∃ result, intake
    (examplePlatform (ascii "worker stopped") (ascii "a890c9735e61ee4798a4219c69d36096d1c1517a1cd9237edcbddb32458c9a80")
      (ascii "LQx6uy5l4lSn5cqsbK_jhuA60XdDsTPxTjywkGkIcJI")) exampleEnv 1790000001000 (deliverOneEvent
      (examplePlatform (ascii "worker stopped") (ascii "a890c9735e61ee4798a4219c69d36096d1c1517a1cd9237edcbddb32458c9a80")
        (ascii "LQx6uy5l4lSn5cqsbK_jhuA60XdDsTPxTjywkGkIcJI")) exampleConfig 1790000000000 exampleNonce (exampleRow (ascii "worker stopped"))) = .ok result :=
  (notices_accepted (example_given _ _ _) (example_documented (by decide +kernel) (by decide +kernel)) exampleNonce
    (example_stored (ascii "worker stopped") (by decide +kernel)) (find?_cons_of_pos (decide_eq_true rfl))).mpr
    { project := ⟨by decide +kernel,by decide +kernel⟩
      projectName := fun _ => by decide +kernel
      task := ⟨by decide +kernel,by decide +kernel⟩
      taskName := ⟨by decide +kernel,by decide +kernel⟩
      failure := fun _ _ reported => by cases reported; exact ⟨by decide +kernel,by decide +kernel,by decide +kernel⟩
      review := nofun
      clock := by decide }

-- A worker's failure without a message is stored and signed, and refused as an invalid event.
theorem silent_failure_refused : Circumstances (examplePlatform [] (ascii "22638d8a2b3ecc508da55e7ff108befe8ce57c36b74d873eaa9e36d2ce3d075e")
      (ascii "ZUlMrwSIv8JVhTlxt1Pz31J2kJ5EaWWDFVoFui_I5Ok")) exampleEnv exampleConfig exampleBase 1790000000000 1790000000000 1790000001000 ∧
    Documented (examplePlatform [] (ascii "22638d8a2b3ecc508da55e7ff108befe8ce57c36b74d873eaa9e36d2ce3d075e")
      (ascii "ZUlMrwSIv8JVhTlxt1Pz31J2kJ5EaWWDFVoFui_I5Ok")) exampleConfig exampleWork (exampleNotice []) 1790000000000 ∧
    emit exampleConfig.opsBaseUrl exampleClock [] [] exampleWork (exampleNotice []) = .ok (failedEventId exampleWork.attempt.id,[exampleRow []]) ∧
    (intake (examplePlatform [] (ascii "22638d8a2b3ecc508da55e7ff108befe8ce57c36b74d873eaa9e36d2ce3d075e")
        (ascii "ZUlMrwSIv8JVhTlxt1Pz31J2kJ5EaWWDFVoFui_I5Ok")) exampleEnv 1790000001000 (deliverOneEvent
        (examplePlatform [] (ascii "22638d8a2b3ecc508da55e7ff108befe8ce57c36b74d873eaa9e36d2ce3d075e")
          (ascii "ZUlMrwSIv8JVhTlxt1Pz31J2kJ5EaWWDFVoFui_I5Ok")) exampleConfig 1790000000000 exampleNonce (exampleRow []))).isOk = false :=
  ⟨example_given _ _ _,example_documented (by decide +kernel) (by decide +kernel),example_stored [] (by decide +kernel),by decide +kernel⟩
end LedgeTopOps.ViewerPayloadAcceptance
