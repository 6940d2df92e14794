import LedgeTopOps.JobBriefs

namespace LedgeTopOps.JobBriefs
open List AtomicPrograms SqlBatches Bool

section
variable {α β γ : Type} {rows : List α}

theorem ordered_perm (key : α → List (List Nat)) (rows : List α) : (ordered key rows).Perm rows := perm_insertionSort _ _

theorem filterMap_read (own : α → γ)
    (found : ∀ row ∈ rows, ∃ joined, find row = some joined ∧ reading joined = own row) : (rows.filterMap find).map reading = rows.map own := by
  induction rows with
  | nil => rfl
  | cons row _ ih =>
    obtain ⟨_,here,same⟩ := found row (mem_cons_self ..)
    rw [filterMap_cons,here,map_cons,map_cons,same]
    rw [ih fun other mem => found other (mem_cons_of_mem _ mem)]

theorem mapM_read {read : α → Option β} (reading : β → γ) (own : α → γ) (same : ∀ row result, read row = some result → reading result = own row)
    (done : rows.mapM read = some results) : results.map reading = rows.map own := by
  induction rows generalizing results with
  | nil =>
    cases done
    rfl
  | cons row _ ih =>
    simp only [mapM_cons,Option.bind_eq_bind,Option.bind_eq_some_iff,Option.pure_def,Option.some.injEq] at done
    obtain ⟨result,first,_,more,rfl⟩ := done
    rw [map_cons,map_cons,same row result first,ih more]
end

def advanced (mutation : Mutation) (db : Db) (links : List Link) : Db :=
  { db with
    brief := some {
      version := mutation.expectedVersion+1, snapshot := mutation.snapshot,
      createdBy := (db.brief.map Brief.createdBy).getD mutation.principal.id, updatedBy := mutation.principal.id }
    attachments := db.attachments++(mutation.attachment.toList.map fun attachment =>
      ⟨attachment,mutation.expectedVersion+1,mutation.principal.id⟩)
    revisions := db.revisions++[mutation.revision]
    links := links
    audit := db.audit++[mutation.audited] }

variable {db after : Db}

theorem holds_advanced (mutation : Mutation) (db : Db) (links : List Link) : holds mutation (advanced mutation db links) := by
  simp [holds,advanced]

theorem guarded_idle (unmet : condition db changes = false) : guarded condition change db changes = some (db,0) := by
  unfold guarded
  rw [if_neg (by simp [unmet])]

theorem mutation_tail_idle (done : batch (mutation.attachment.toList.map (insertAttachment mutation)
      ++insertRevision mutation :: insertAudit mutation :: rest) db 0 = some (after,counts)) : ∃ more, batch rest db 0 = some (after,more) := by
  have attachment : ∀ attachment, insertAttachment mutation attachment db 0 = some (db,0) := fun _ => guarded_idle rfl
  have revision : insertRevision mutation db 0 = some (db,0) := guarded_idle rfl
  have audit : insertAudit mutation db 0 = some (db,0) := guarded_idle rfl
  have final : ∀ {counts}, batch (insertRevision mutation :: insertAudit mutation :: rest) db 0 = some (after,counts) →
      ∃ more, batch rest db 0 = some (after,more) := by
    intro _ done
    obtain ⟨t,changed,more,ran,tail,-⟩ := batch_cons.mp done
    cases ran
    obtain ⟨t,_,more,ran,tail,-⟩ := batch_cons.mp tail
    cases ran
    exact ⟨more,tail⟩
  cases given : mutation.attachment with
  | none =>
    rw [given] at done
    exact final done
  | some =>
    rw [given] at done
    obtain ⟨t,_,_,ran,tail,-⟩ := batch_cons.mp done
    cases ran
    exact final tail

theorem mutation_tail_made (done : batch (mutation.attachment.toList.map (insertAttachment mutation)
      ++insertRevision mutation :: insertAudit mutation :: rest) db 1 = some (after,counts)) :
    ∃ more, batch rest { db with
      attachments := db.attachments++(mutation.attachment.toList.map fun attachment =>
        ⟨attachment,mutation.expectedVersion+1,mutation.principal.id⟩)
      revisions := db.revisions++[mutation.revision]
      audit := db.audit++[mutation.audited] } 1 = some (after,more) := by
  have final : ∀ {db counts}, batch (insertRevision mutation :: insertAudit mutation :: rest) db 1 = some (after,counts) →
      ∃ more, batch rest { db with revisions := db.revisions++[mutation.revision], audit := db.audit++[mutation.audited] } 1
        = some (after,more) := by
    intro _ _ done
    obtain ⟨t,changed,more,ran,tail,-⟩ := batch_cons.mp done
    obtain ⟨-,made,rfl⟩ | ⟨unmet,-,-⟩ := guarded_some ran
    · split at made
      · cases made
      · cases made
        obtain ⟨t,_,more,ran,tail,-⟩ := batch_cons.mp tail
        obtain ⟨-,made,rfl⟩ | ⟨unmet,-,-⟩ := guarded_some ran
        · cases made
          exact ⟨more,tail⟩
        cases unmet
    cases unmet
  cases given : mutation.attachment with
  | none =>
    rw [given] at done
    obtain ⟨more,tail⟩ := final done
    refine ⟨more,?_⟩
    simpa using tail
  | some =>
    rw [given] at done
    obtain ⟨t,_,_,ran,tail,-⟩ := batch_cons.mp done
    obtain ⟨-,made,rfl⟩ | ⟨unmet,-,-⟩ := guarded_some ran
    · split at made
      · cases made
      · split at made
        · cases made
          exact final tail
        · cases made
    cases unmet

theorem mutation_batch (done : batch (mutationStatements mutation++rest) db 0 = some (after,counts)) :
    (wins mutation.expectedVersion db ∧ (db.staff mutation.principal.id).isSome ∧ counts.headD 0 = 1 ∧
      ∃ more, batch rest (advanced mutation db db.links) 1 = some (after,more)) ∨
    (wins mutation.expectedVersion db = false ∧ counts.headD 0 = 0 ∧ ∃ more, batch rest db 0 = some (after,more)) := by
  unfold mutationStatements at done
  rw [cons_append,append_assoc] at done
  obtain ⟨t,changed,more,ran,tail,rfl⟩ := batch_cons.mp done
  obtain ⟨met,made,rfl⟩ | ⟨unmet,rfl,rfl⟩ := guarded_some ran
  · split at made
    · rename_i known
      cases made
      obtain ⟨more,final⟩ := mutation_tail_made tail
      exact .inl ⟨met,known,rfl,more,final⟩
    · cases made
  exact .inr ⟨unmet,rfl,mutation_tail_idle tail⟩

theorem links_idle (missing : holds mutation db = false)
    (done : batch (linkStatements mutation selected current) db changes = some (after,counts)) : after = db := by
  have inserts : ∀ (rows : List SopLinkRow) (changes : Nat) (counts : List Nat),
      batch (rows.map (insertLink mutation)) db changes = some (after,counts) → after = db := by
    intro rows
    induction rows with
    | nil =>
      intro _ _ done
      cases done
      rfl
    | cons row _ ih =>
      intro changes _ done
      obtain ⟨t,_,_,ran,tail,-⟩ := batch_cons.mp done
      rw [show insertLink mutation row db changes = some (db,0) from guarded_idle missing] at ran
      cases ran
      exact ih _ _ tail
  obtain ⟨t,_,_,ran,tail,-⟩ := batch_cons.mp done
  unfold deleteLinks at ran
  rw [if_neg (by simp [missing])] at ran
  cases ran
  exact inserts _ _ _ tail

def Link.known (db : Db) (link : Link) : Prop :=
  (db.documents link.sopId).isSome ∧ ∃ revision, db.sopRevisions link.revisionId = some revision ∧ revision.sopId = link.sopId

def linkOf (mutation : Mutation) (row : SopLinkRow) : Link := ⟨row.sopId,row.revisionId,mutation.principal.id⟩

theorem insertLink_made (present : holds mutation db) (ran : insertLink mutation row db changes = some (after,changed)) :
    after = { db with links := db.links++[linkOf mutation row] } ∧ (linkOf mutation row).known db := by
  obtain ⟨-,made,-⟩ | ⟨unmet,-,-⟩ := guarded_some ran
  · split at made
    · cases made
    · rename_i document
      split at made
      · cases made
      rename_i revision
      split at made
      · cases made
      split at made
      · cases made
        refine ⟨rfl,?_,?_⟩
        · simp only [not_eq_true',not_eq_false,Option.any_eq_true] at document
          obtain ⟨found,stored,-⟩ := document
          exact Option.isSome_iff_exists.mpr ⟨found,stored⟩
        simp only [not_eq_true',not_eq_false,Option.any_eq_true,decide_eq_true_eq] at revision
        exact revision
      cases made
  rw [present] at unmet
  cases unmet

theorem links_made (present : holds mutation db)
    (done : batch (linkStatements mutation selected current) db changes = some (after,counts)) :
    ∃ added, added = (selected.filter fun row => !(current.map SopLinkRow.revisionId).contains row.revisionId).map (linkOf mutation) ∧
      after = { db with links := (db.links.filter fun link => (selected.map SopLinkRow.revisionId).contains link.revisionId)++added } ∧
      ∀ link ∈ added, link.known db := by
  have inserts : ∀ (rows : List SopLinkRow) (db : Db) (changes : Nat) (counts : List Nat), holds mutation db →
      batch (rows.map (insertLink mutation)) db changes = some (after,counts) →
      after = { db with links := db.links++rows.map (linkOf mutation) } ∧ ∀ link ∈ rows.map (linkOf mutation), link.known db := by
    intro rows
    induction rows with
    | nil =>
      intro _ _ _ _ done
      cases done
      exact ⟨by simp,fun _ mem => nomatch mem⟩
    | cons _ _ ih =>
      intro _ _ _ present done
      obtain ⟨t,_,_,ran,tail,-⟩ := batch_cons.mp done
      obtain ⟨rfl,known⟩ := insertLink_made present ran
      obtain ⟨rfl,others⟩ := ih _ _ _ (by exact present) tail
      refine ⟨by simp,fun link mem => ?_⟩
      rcases mem_cons.mp mem with rfl | deep
      · exact known
      exact others link deep
  obtain ⟨t,_,_,ran,tail,-⟩ := batch_cons.mp done
  unfold deleteLinks at ran
  rw [if_pos present] at ran
  cases ran
  obtain ⟨same,known⟩ := inserts _ _ _ _ (by exact present) tail
  exact ⟨_,rfl,same,known⟩
end LedgeTopOps.JobBriefs
