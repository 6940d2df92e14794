import LedgeTopOps.JobBriefBatches

namespace LedgeTopOps.JobBriefs
open List StepRuns AtomicPrograms

def Snapshot.attachmentIds (snapshot : Snapshot) : List String := snapshot.attachments.map AttachmentDto.id
def Snapshot.revisionIds (snapshot : Snapshot) : List String := snapshot.sops.map SopLinkDto.revisionId

def attachedBy (db : Db) (version : Nat) : List String :=
  (db.attachments.filter fun row => decide (row.versionAdded ≤ version)).map fun row => row.attachment.id

structure Sound (db : Db) : Prop where
  versions : db.revisions.map Revision.version = range' 1 (currentVersion db)
  latest : db.revisions.getLast?.map Revision.snapshot = db.brief.map Brief.snapshot
  positive : ∀ brief ∈ db.brief, 0 < brief.version
  returned : ∀ version ∈ db.returned, version ≤ currentVersion db
  authors : ∀ row ∈ db.attachments, (db.staff row.createdBy).isSome ∧ row.versionAdded ≤ currentVersion db
  known : ∀ link ∈ db.links, link.known db
  distinct : (db.links.map Link.revisionId).Nodup
  bare : db.brief = none → db.attachments = [] ∧ db.links = []
  attached : ∀ revision ∈ db.revisions, revision.snapshot.attachmentIds.Perm (attachedBy db revision.version)
  linked : ∀ brief ∈ db.brief, brief.snapshot.revisionIds.Perm (db.links.map Link.revisionId)

variable {db after : Db}

theorem initial_sound (staff : String → Option String) (documents : String → Option SopDocument)
    (sopRevisions : String → Option SopRevision) : Sound (Db.initial staff documents sopRevisions) where
  versions := rfl
  latest := rfl
  positive := nofun
  returned := nofun
  authors := nofun
  known := nofun
  distinct := nodup_nil
  bare _ := ⟨rfl,rfl⟩
  attached := nofun
  linked := nofun

theorem wins_version (won : wins expected db) : currentVersion db = expected := by
  unfold wins at won
  unfold currentVersion
  split at won
  · rename_i zero
    rw [Option.isNone_iff_eq_none.mp won,zero]
    rfl
  rw [of_decide_eq_true won]
  rfl

theorem advanced_version (mutation : Mutation) (db : Db) (links : List Link) :
    currentVersion (advanced mutation db links) = mutation.expectedVersion+1 := rfl

theorem attachedBy_all (current : ∀ row ∈ db.attachments, row.versionAdded ≤ version) :
    attachedBy db version = db.attachments.map fun row => row.attachment.id := by
  unfold attachedBy
  rw [filter_eq_self.mpr]
  exact fun row mem => decide_eq_true (current row mem)

theorem attachedBy_advanced (earlier : version ≤ mutation.expectedVersion) : attachedBy (advanced mutation db links) version = attachedBy db version := by
  unfold attachedBy advanced
  rw [filter_append]
  have none_ : (mutation.attachment.toList.map fun attachment =>
      (⟨attachment,mutation.expectedVersion+1,mutation.principal.id⟩ : Attached)).filter (fun row => decide (row.versionAdded ≤ version)) = [] := by
    apply filter_eq_nil_iff.mpr
    intro row mem
    obtain ⟨attachment,-,rfl⟩ := mem_map.mp mem
    simp only [decide_eq_true_eq]
    omega
  rw [none_,append_nil]

structure Lists (mutation : Mutation) (db : Db) (links : List Link) : Prop where
  attachments : mutation.snapshot.attachmentIds.Perm
    ((advanced mutation db links).attachments.map fun row => row.attachment.id)
  sops : mutation.snapshot.revisionIds.Perm (links.map Link.revisionId)
  known : ∀ link ∈ links, link.known db
  distinct : (links.map Link.revisionId).Nodup

theorem advanced_sound (sound : Sound db) (won : wins mutation.expectedVersion db)
    (staff : (db.staff mutation.principal.id).isSome) (lists : Lists mutation db links) : Sound (advanced mutation db links) := by
  have current := wins_version won
  refine ⟨?_,?_,?_,?_,?_,lists.known,lists.distinct,nofun,?_,?_⟩
  · rw [advanced_version]
    show (db.revisions++[mutation.revision]).map Revision.version = _
    rw [map_append,sound.versions,current,range'_concat]
    show _++[mutation.expectedVersion+1] = _++[1+1*mutation.expectedVersion]
    congr 2
    omega
  · show (db.revisions++[mutation.revision]).getLast?.map Revision.snapshot = _
    rw [List.getLast?_concat]
    rfl
  · intro _ stored
    cases stored
    exact Nat.succ_pos _
  · intro version mem
    rw [advanced_version]
    have earlier := sound.returned version mem
    omega
  · intro row mem
    rw [advanced_version]
    rcases mem_append.mp mem with old | new
    · have kept := sound.authors row old
      exact ⟨kept.1,by omega⟩
    obtain ⟨_,-,rfl⟩ := mem_map.mp new
    exact ⟨staff,Nat.le_refl _⟩
  · intro revision mem
    rcases mem_append.mp mem with old | new
    · have place : revision.version ∈ range' 1 (currentVersion db) := by
        rw [←sound.versions]
        exact mem_map_of_mem old
      have bound := mem_range'_1.mp place
      rw [attachedBy_advanced (by omega)]
      exact sound.attached revision old
    cases mem_singleton.mp new
    have all : ∀ row ∈ (advanced mutation db links).attachments, row.versionAdded ≤ mutation.expectedVersion+1 := by
      intro row mem
      rcases mem_append.mp mem with old | new
      · have kept := (sound.authors row old).2
        omega
      obtain ⟨_,-,rfl⟩ := mem_map.mp new
      exact Nat.le_refl _
    show mutation.snapshot.attachmentIds.Perm (attachedBy _ (mutation.expectedVersion+1))
    rw [attachedBy_all all]
    exact lists.attachments
  intro _ stored
  cases stored
  exact lists.sops

theorem outside_sound (sound : Sound db) (moved : Outside db after) : Sound after := by
  have version : currentVersion after = currentVersion db := by
    unfold currentVersion
    rw [moved.brief]
  refine ⟨?_,?_,?_,?_,?_,?_,?_,?_,?_,?_⟩
  · rw [moved.revisions,version]
    exact sound.versions
  · rw [moved.revisions,moved.brief]
    exact sound.latest
  · rw [moved.brief]
    exact sound.positive
  · intro given mem
    rw [version]
    rcases moved.returned given mem with rfl | old
    · exact Nat.le_refl _
    exact sound.returned given old
  · intro row mem
    rw [moved.attachments] at mem
    rw [version]
    exact ⟨moved.staff _ (sound.authors row mem).1,(sound.authors row mem).2⟩
  · intro link mem
    rw [moved.links] at mem
    obtain ⟨document,revision,stored,own⟩ := sound.known link mem
    exact ⟨moved.documents _ document,revision,moved.sopRevisions _ _ stored,own⟩
  · rw [moved.links]
    exact sound.distinct
  · intro none_
    rw [moved.attachments,moved.links]
    exact sound.bare (moved.brief ▸ none_)
  · intro revision mem
    rw [moved.revisions] at mem
    have same : attachedBy after revision.version = attachedBy db revision.version := by
      unfold attachedBy
      rw [moved.attachments]
    rw [same]
    exact sound.attached revision mem
  rw [moved.brief,moved.links]
  exact sound.linked

theorem loadAttachments_ids (sound : Sound db) :
    ((loadAttachments db).map attachmentDto).map AttachmentDto.id |>.Perm (db.attachments.map fun row => row.attachment.id) := by
  rw [map_map]
  refine ((ordered_perm _ _).map _).trans ?_
  rw [filterMap_read fun row => row.attachment.id]
  intro row mem
  obtain ⟨name,stored⟩ := Option.isSome_iff_exists.mp (sound.authors row mem).1
  exact ⟨⟨row.attachment,row.versionAdded,row.createdBy,name⟩,by rw [stored]; rfl,rfl⟩

theorem loadLinkedSops_ids (sound : Sound db) : ((loadLinkedSops db).map SopLinkRow.revisionId).Perm (db.links.map Link.revisionId) := by
  refine ((ordered_perm _ _).map _).trans ?_
  rw [filterMap_read Link.revisionId]
  intro link mem
  obtain ⟨document,revision,stored,own⟩ := sound.known link mem
  obtain ⟨row,held⟩ := Option.isSome_iff_exists.mp document
  refine ⟨⟨link.sopId,link.revisionId,revision,row⟩,?_,rfl⟩
  unfold joined
  rw [held,stored,Option.bind_some,Option.bind_some,if_pos own]

theorem sopLinkDto_revisionId (row : SopLinkRow) (dto : SopLinkDto) (read : sopLinkDto row = some dto) : dto.revisionId = row.revisionId := by
  obtain ⟨_,-,rfl⟩ := Option.map_eq_some_iff.mp read
  rfl

theorem selectable_revisionId (chosen : selectable db revisionId = some row) : row.revisionId = revisionId := by
  obtain ⟨_,-,tail⟩ := Option.bind_eq_some_iff.mp chosen
  obtain ⟨_,-,made⟩ := Option.bind_eq_some_iff.mp tail
  split at made
  · cases made
    rfl
  cases made

theorem selectedSops_ids (complete : (selectedSops db revisionIds).length = revisionIds.length) :
    ((selectedSops db revisionIds).map SopLinkRow.revisionId).Perm revisionIds := by
  unfold selectedSops at complete
  rw [(ordered_perm _ _).length_eq] at complete
  have found := filterMap_length_eq_length.mp complete
  refine ((ordered_perm _ _).map _).trans ?_
  rw [filterMap_read id,map_id]
  intro revisionId mem
  obtain ⟨row,chosen⟩ := Option.isSome_iff_exists.mp (found revisionId mem)
  exact ⟨row,chosen,selectable_revisionId chosen⟩
end LedgeTopOps.JobBriefs
