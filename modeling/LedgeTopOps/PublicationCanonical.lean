import LedgeTopOps.WorkspacePublication

namespace LedgeTopOps.PublicationCanonical
open List ClosedCodec WorkspacePublication

section
variable {control : Nat → Bool}

theorem fence_good (x : Fence) : fence.Good x :=
  ⟨trivial,trivial,trivial,trivial,trivial,trivial,trivial,trivial,trivial⟩

theorem directoryRecord_good (distinct : (x.externalFences.map fenceIdentity).Nodup) : (directoryRecord control).Good x := by
  refine ⟨trivial,trivial,trivial,?_,?_,trivial,⟨fun one _ => fence_good one,?_⟩,trivial⟩
  · exact Codec.nullable_good rfl (fun _ => trivial) _
  · exact Codec.nullable_good rfl (fun _ => trivial) _
  exact keys_distinct distinct fun left right same => head_eq_of_cons_eq same

theorem project_good (x : Project) : (project control).Good x := by
  refine ⟨trivial,trivial,trivial,trivial,?_,?_,?_,trivial,?_,trivial,trivial,?_,?_,?_,trivial⟩
  case refine_7 => exact Codec.nullable_good rfl fence_good _
  all_goals exact Codec.nullable_good rfl (fun _ => trivial) _

theorem folder_good (x : FolderReservation) : (folder control).Good x :=
  ⟨trivial,trivial,trivial,trivial,trivial,trivial,trivial,trivial,trivial⟩

theorem recipient_good (x : RecipientHead) : (recipient control).Good x :=
  ⟨trivial,trivial,trivial,trivial,trivial,trivial,trivial,trivial,trivial,trivial,trivial,trivial,trivial,trivial,trivial⟩

theorem delivery_good (x : DeliveryHead) : (delivery control).Good x :=
  ⟨trivial,trivial,trivial,trivial,trivial,trivial,trivial,trivial,trivial,trivial,trivial,trivial, Codec.nullable_good rfl (fun _ => trivial) _,trivial⟩

structure Distinct (snapshot : Snapshot) : Prop where
  records : (snapshot.directoryRecords.map DirectoryRecord.recordId).Nodup
  fences : ∀ record ∈ snapshot.directoryRecords, (record.externalFences.map fenceIdentity).Nodup
  projects : (snapshot.projects.map Project.externalProjectId).Nodup
  folders : (snapshot.folderReservations.map FolderReservation.reservationId).Nodup
  recipients : (snapshot.recipientAuthorityHeads.map RecipientHead.recipientBindingId).Nodup
  deliveries : (snapshot.deliveryAuthorityHeads.map DeliveryHead.authorityId).Nodup

theorem identitiesUnique_distinct (checked : identitiesUnique publication) : Distinct publication.snapshot := by
  simp only [identitiesUnique,unique,Bool.and_eq_true,decide_eq_true_eq] at checked
  obtain ⟨⟨⟨⟨⟨⟨⟨⟨⟨⟨⟨records,fences⟩,projects⟩,-⟩,folders⟩,-⟩,-⟩,recipients⟩,-⟩,-⟩,deliveries⟩,-⟩ := checked
  refine ⟨records,fun record mem => ?_,projects,folders,recipients,deliveries⟩
  exact (nodup_flatMap.mp fences).1 record mem

theorem snapshot_good (distinct : Distinct x) : (snapshotCodec control).Good x := by
  refine ⟨trivial,trivial,trivial,trivial,?_,trivial,?_,?_,?_,?_,?_,trivial⟩
  · exact ⟨trivial,trivial,trivial,trivial,trivial,trivial⟩
  · refine ⟨fun record mem => directoryRecord_good (distinct.fences record mem),?_⟩
    exact keys_distinct distinct.records fun left right same => head_eq_of_cons_eq same
  · refine ⟨fun project _ => project_good project,?_⟩
    exact keys_distinct distinct.projects fun left right same => head_eq_of_cons_eq same
  · -- The second key tells the folders of one project apart.
    refine ⟨fun folder _ => folder_good folder,?_⟩
    exact keys_distinct distinct.folders fun left right same =>
      head_eq_of_cons_eq (tail_eq_of_cons_eq same)
  · -- The third key does so for recipients; issuer and subject together are unique as well.
    refine ⟨fun head _ => recipient_good head,?_⟩
    exact keys_distinct distinct.recipients fun left right same =>
      head_eq_of_cons_eq (tail_eq_of_cons_eq (tail_eq_of_cons_eq same))
  refine ⟨fun head _ => delivery_good head,?_⟩
  exact keys_distinct distinct.deliveries fun left right same => head_eq_of_cons_eq same

theorem publication_good (parsed : parsePublication control value = some publication) : (publicationCodec control).Good publication := by
  obtain ⟨-,met⟩ := Option.filter_eq_some_iff.mp parsed
  simp only [Bool.and_eq_true] at met
  have distinct := identitiesUnique_distinct met.1.1.2
  refine ⟨trivial,trivial,trivial,trivial,trivial,trivial,trivial,?_,snapshot_good distinct,?_,trivial,trivial⟩
  · exact ⟨trivial,trivial,trivial,trivial,trivial,trivial,trivial⟩
  exact ⟨trivial,trivial,trivial,trivial,trivial,trivial,trivial⟩
end

structure Canonical (control : Nat → Bool) (jsonParse : Text → Option JsValue) (value : JsValue) (publication : Publication) :
    Prop where
  rearranged : ∀ again, Rearranged value again → parsePublication control again = some publication ∧
    canonicalPublication control again = canonicalPublication control value ∧
    (parsePublication control again).map (snapshotHashMaterial control) = (parsePublication control value).map (snapshotHashMaterial control)
  reparsed : ∃ text document, canonicalPublication control value = some text ∧ jsonParse text = some document ∧
    parsePublication control document = some publication ∧ canonicalPublication control document = some text

-- JSON.parse is taken to read back what JSON.stringify wrote of the publication.
theorem publication_canonical (control : Nat → Bool) (jsonParse : Text → Option JsValue) (value : JsValue)
    (publication : Publication) (parsed : parsePublication control value = some publication)
    (faithful : jsonParse (stringify (publicationJson control publication)) = some (publicationJson control publication)) :
    Canonical control jsonParse value publication := by
  constructor
  · intro again rearranged
    have same : parsePublication control again = some publication :=
      (publicationCodec control).stable parsed (publication_good parsed) rearranged
    refine ⟨same,?_,?_⟩
    · unfold canonicalPublication
      rw [same,parsed]
    rw [same,parsed]
  have read : parsePublication control (publicationJson control publication) = some publication :=
    (publicationCodec control).round parsed
  refine ⟨stringify (publicationJson control publication),publicationJson control publication,?_,faithful,read,?_⟩
  · unfold canonicalPublication
    rw [parsed]
    rfl
  unfold canonicalPublication
  rw [read]
  rfl

def sampleId (last : String) : JsValue := .string (ascii ("00000000-0000-4000-8000-00000000000"++last))

def sampleRecord : JsValue :=
  .object true (directoryKeys.zip
    [.string (ascii "client-1"),.string (ascii "client"),.string (ascii "1"),.null,.string (ascii "1"),.string (ascii "Lake"), .array true []])

def sampleSnapshot : JsValue :=
  .object true (snapshotKeys.zip
    [sampleId "1",sampleId "2",.string (ascii "7"),.bool true, .object true (countKeys.zip [.number 1,.number 0,.number 0,.number 0,.number 0]),
      .string (replicate 64 0x61),.array true [sampleRecord],.array true [],.array true [],.array true [],.array true []])

def sampleTarget : JsValue :=
  .object true (targetKeys.zip
    [sampleId "3",.string (ascii "1"),sampleId "4",.string (ascii "workspace"),.string (ascii "standalone_client"), .string (ascii "client-1")])

def sampleActor : JsValue :=
  .object true (actorKeys.zip
    [.string (ascii "staff"),.string (ascii "subject"),.string (ascii "1"),.string (ascii "1"),.string (ascii "1"), .string (ascii "2026-03-01T00:00:00.000Z")])

def sample : JsValue :=
  .object true (publicationKeys.zip
    [.string protocolName,.number 1,.string (ascii "publish"),sampleId "5",sampleId "6",.string (ascii "0"),
      .string (ascii "1"),sampleTarget,sampleSnapshot,sampleActor,.string (ascii "2026-02-28T23:59:59.999Z")]).reverse

def sampleControl (point : Nat) : Bool := decide (point < 0x20)

def samplePublication : Publication :=
  { protocol := protocolName, protocolVersion := 1, action := ascii "publish",
    publicationId := ascii "00000000-0000-4000-8000-000000000005", operationId := ascii "00000000-0000-4000-8000-000000000006",
    expectedRevision := ascii "0", resultingRevision := ascii "1",
    target := ⟨ascii "00000000-0000-4000-8000-000000000003",ascii "1",ascii "00000000-0000-4000-8000-000000000004",
      ascii "workspace",.standaloneClient,ascii "client-1"⟩,
    snapshot := ⟨ascii "00000000-0000-4000-8000-000000000001",ascii "00000000-0000-4000-8000-000000000002",ascii "7",true,
      ⟨1,0,0,0,0⟩,replicate 64 0x61,
      [⟨ascii "client-1",.client,ascii "1",none,some (ascii "1"),ascii "Lake",[]⟩],[],[],[],[]⟩,
    actorProof := ⟨ascii "staff",ascii "subject",ascii "1",ascii "1",ascii "1",ascii "2026-03-01T00:00:00.000Z"⟩,
    observedAt := ascii "2026-02-28T23:59:59.999Z" }

def sampleText : Text := stringify (publicationJson sampleControl samplePublication)

def sampleParse (text : Text) : Option JsValue :=
  if text = sampleText then some (publicationJson sampleControl samplePublication) else none

theorem publication_canonical_example : Canonical sampleControl sampleParse sample samplePublication :=
  publication_canonical sampleControl sampleParse sample samplePublication (by decide +kernel) (if_pos rfl)
end LedgeTopOps.PublicationCanonical
