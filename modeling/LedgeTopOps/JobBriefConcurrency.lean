import LedgeTopOps.JobBriefHistory
import Mathlib.Data.List.Infix

namespace LedgeTopOps.JobBriefs
open List hiding after
open StepRuns AtomicPrograms SqlBatches

structure Unchanged (before after : Db) : Prop where
  brief : after.brief = before.brief
  attachments : after.attachments = before.attachments
  revisions : after.revisions = before.revisions
  links : after.links = before.links
  audit : after.audit = before.audit

theorem Unchanged.rfl : Unchanged db db := ⟨Eq.refl _,Eq.refl _,Eq.refl _,Eq.refl _,Eq.refl _⟩

theorem Unchanged.next (first : Unchanged s t) (second : Unchanged t u) : Unchanged s u :=
  ⟨second.brief.trans first.brief,second.attachments.trans first.attachments,second.revisions.trans first.revisions,
    second.links.trans first.links,second.audit.trans first.audit⟩

theorem Outside.unchanged (moved : Outside before after) : Unchanged before after :=
  ⟨moved.brief,moved.attachments,moved.revisions,moved.links,moved.audit⟩

structure Rely (name : Nat) (before after : Db) : Prop where
  versions : currentVersion before ≤ currentVersion after
  same : currentVersion before = currentVersion after → Unchanged before after
  revisions : before.revisions <+: after.revisions
  unused : Unused name before → Unused name after

theorem Unchanged.rely (unchanged : Unchanged before after) : Rely name before after := by
  have version : currentVersion after = currentVersion before := by
    unfold currentVersion
    rw [unchanged.brief]
  refine ⟨Nat.le_of_eq version.symm,fun _ => unchanged,?_,fun unused => ?_⟩
  · rw [unchanged.revisions]
  unfold Unused
  rw [unchanged.revisions]
  exact unused

theorem Rely.next (first : Rely name s t) (second : Rely name t u) : Rely name s u where
  versions := first.versions.trans second.versions
  same equal := by
    have one := first.versions
    have two := second.versions
    exact (first.same (by omega)).next (second.same (by omega))
  revisions := first.revisions.trans second.revisions
  unused unused := second.unused (first.unused unused)

structure Advances (name expectedVersion : Nat) (before after : Db) : Prop where
  started : currentVersion before = expectedVersion
  ended : currentVersion after = expectedVersion+1
  revisions : ∃ revision, after.revisions = before.revisions++[revision] ∧ revision.version = expectedVersion+1 ∧
    revision.snapshot.mutationId = name

theorem Advances.rely (advances : Advances name expectedVersion before after) (different : other ≠ name) : Rely other before after := by
  obtain ⟨revision,revisions,-,own⟩ := advances.revisions
  have first := advances.started
  have last := advances.ended
  refine ⟨by omega,fun equal => absurd equal (by omega),?_,fun unused => ?_⟩
  · rw [revisions]
    exact prefix_append ..
  unfold Unused
  rw [revisions]
  intro row mem
  rcases mem_snoc.mp mem with old | rfl
  · exact unused row old
  rw [own]
  exact fun same => different same.symm

def Won (name expectedVersion : Nat) (db : Db) : Prop :=
  ∃ revision ∈ db.revisions, revision.version = expectedVersion+1 ∧ revision.snapshot.mutationId = name

def terms (name : Nat) (request : Request) : Terms Db Outcome where
  inside := Sound
  rely := Rely name
  guarantee before after next := Sound after ∧
    (after = before ∨ (next = .done .won ∧ Advances name request.expectedVersion before after))
  post result db := result = .won → Won name request.expectedVersion db

structure Ready (name expectedVersion : Nat) (db : Db) : Prop where
  seen : expectedVersion ≤ currentVersion db
  unused : Unused name db

theorem Ready.later (ready : Ready name expected s) (relied : Rely name s t) : Ready name expected t :=
  ⟨ready.seen.trans relied.versions,relied.unused ready.unused⟩

theorem Ready.same (ready : Ready name expected s) (relied : Rely name s t) (current : currentVersion t = expected) : Unchanged s t := by
  have seen := ready.seen
  have forward := relied.versions
  exact relied.same (by omega)

section
theorem reading {next : Db → Program Db Outcome} (after : ∀ t, Rely name db t → Sound t → Obeys (terms name request) (next t) t) :
    Obeys (terms name request) (.read (.done .threw) next) db :=
  obeys_read (fun _ sound => ⟨sound,.inl rfl⟩) fun t relied sound => ⟨after t relied sound,nofun⟩

theorem holds_unused (sound : Sound db) (unused : Unused name db) (named : mutation.snapshot.mutationId = name) : holds mutation db = false := by
  unfold holds
  cases stored : db.brief with
  | none => rfl
  | some brief =>
    have latest := sound.latest
    rw [stored] at latest
    obtain ⟨revision,last,same⟩ := Option.map_eq_some_iff.mp latest
    have different := unused revision (List.mem_of_getLast? last)
    have apart : brief.snapshot ≠ mutation.snapshot := by
      intro equal
      rw [same,equal,named] at different
      exact different rfl
    simp [apart]

structure Settles (name expectedVersion : Nat) (mutation : Mutation) (rest : List (Statement Db)) (db : Db) : Prop where
  expected : mutation.expectedVersion = expectedVersion
  named : mutation.snapshot.mutationId = name
  idle : ∀ t after changes counts, holds mutation t = false → batch rest t changes = some (after,counts) → after = t
  made : ∀ t after changes counts, Rely name db t → Sound t → currentVersion t = expectedVersion →
    batch rest (advanced mutation t t.links) changes = some (after,counts) →
      ∃ links, after = advanced mutation t links ∧ Lists mutation t links

theorem submit_obeys (ready : Ready name request.expectedVersion db) (settles : Settles name request.expectedVersion mutation rest db) :
    Obeys (terms name request) (submit (mutationStatements mutation++rest)) db := by
  apply obeys_transact
  · intro t u counts relied sound done
    have later := ready.later relied
    rcases mutation_batch done with ⟨won,staff,count,more,ran⟩ | ⟨lost,count,more,ran⟩
    · have current : currentVersion t = request.expectedVersion := by
        rw [wins_version won,settles.expected]
      obtain ⟨links,rfl,lists⟩ := settles.made t u 1 more relied sound current ran
      have advances : Advances name request.expectedVersion t (advanced mutation t links) := by
        refine ⟨current,?_,mutation.revision,rfl,?_,settles.named⟩
        · rw [advanced_version,settles.expected]
        rw [←settles.expected]
        rfl
      have result : outcome counts = .done .won := by
        unfold outcome
        rw [count]
        rfl
      rw [result]
      refine ⟨⟨advanced_sound sound won staff lists,.inr ⟨rfl,advances⟩⟩,fun _ => ?_⟩
      obtain ⟨revision,revisions,version,own⟩ := advances.revisions
      refine ⟨revision,?_,version,own⟩
      rw [revisions]
      exact mem_append_right _ (mem_singleton_self _)
    cases settles.idle t u 0 more (holds_unused sound later.unused settles.named) ran
    have result : outcome counts = .done .lost := by
      unfold outcome
      rw [count]
      rfl
    rw [result]
    exact ⟨⟨sound,.inl rfl⟩,nofun⟩
  · exact fun _ sound => ⟨sound,.inl rfl⟩
  · exact fun _ _ _ => nofun

theorem Settles.plain (expected : mutation.expectedVersion = expectedVersion)
    (named : mutation.snapshot.mutationId = name)
    (attachments : ∀ t, Rely name db t → Sound t → currentVersion t = expectedVersion →
      mutation.snapshot.attachmentIds.Perm ((advanced mutation t t.links).attachments.map fun row => row.attachment.id))
    (sops : ∀ t, Rely name db t → Sound t → currentVersion t = expectedVersion → mutation.snapshot.revisionIds.Perm (t.links.map Link.revisionId)) :
    Settles name expectedVersion mutation [] db where
  expected := expected
  named := named
  idle t after changes counts missing done := by
    cases done
    rfl
  made t after changes counts relied sound current done := by
    cases done
    exact ⟨t.links,rfl,attachments t relied sound current,sops t relied sound current,sound.known,sound.distinct⟩

theorem plain_obeys (ready : Ready name request.expectedVersion db) (settles : Settles name request.expectedVersion mutation [] db) :
    Obeys (terms name request) (submit (mutationStatements mutation)) db := by
  rw [←append_nil (mutationStatements mutation)]
  exact submit_obeys ready settles

section
variable {old : Db} (ready : Ready name expected old) (sound : Sound old) (relied : Rely name old t) (current : currentVersion t = expected)
include old ready sound relied current

theorem attachments_later : ((loadAttachments old).map attachmentDto).map AttachmentDto.id |>.Perm (t.attachments.map fun row => row.attachment.id) := by
  rw [(ready.same relied current).attachments]
  exact loadAttachments_ids sound

theorem sops_later (listed : (loadLinkedSops old).mapM sopLinkDto = some sops) : (sops.map SopLinkDto.revisionId).Perm (t.links.map Link.revisionId) := by
  rw [(ready.same relied current).links, mapM_read SopLinkDto.revisionId SopLinkRow.revisionId sopLinkDto_revisionId listed]
  exact loadLinkedSops_ids sound
end

theorem saveScope_obeys (ready : Ready name request.expectedVersion db) :
    Obeys (terms name request) (saveScope name request.principal request.expectedVersion items) db := by
  apply reading
  intro first relied first_sound
  have first_ready := ready.later relied
  apply reading
  intro second passed second_sound
  have second_ready := first_ready.later passed
  split
  · exact nofun
  rename_i sops listed
  apply plain_obeys second_ready
  refine Settles.plain rfl rfl ?_ ?_
  · intro t later _ current
    show (((loadAttachments first).map attachmentDto).map AttachmentDto.id).Perm ((t.attachments++[]).map _)
    rw [append_nil]
    exact attachments_later first_ready first_sound (passed.next later) current
  intro t later _ current
  exact sops_later second_ready second_sound later current listed

theorem addAttachment_obeys (ready : Ready name request.expectedVersion db) :
    Obeys (terms name request) (addAttachment name request.principal request.expectedVersion attachment) db := by
  apply reading
  intro zero relied _
  have ready := ready.later relied
  dsimp only
  split
  · exact nofun
  split
  · exact nofun
  rename_i items stored
  apply reading
  intro first relied first_sound
  have first_ready := ready.later relied
  apply reading
  intro second passed second_sound
  have second_ready := first_ready.later passed
  split
  · exact nofun
  rename_i sops listed
  apply plain_obeys second_ready
  refine Settles.plain rfl rfl ?_ ?_
  · intro t later _ current
    show (((loadAttachments first).map attachmentDto++[_]).map AttachmentDto.id).Perm ((t.attachments++[_]).map _)
    rw [map_append,map_append]
    exact (attachments_later first_ready first_sound (passed.next later) current).append_right _
  intro t later _ current
  exact sops_later second_ready second_sound later current listed

theorem merged_perm {old wanted listed : List String} (left : old.Nodup) (right : wanted.Nodup) (same : listed.Perm old) :
    (old.filter wanted.contains++wanted.filter fun id => !listed.contains id).Perm wanted := by
  have apart : (old.filter wanted.contains++wanted.filter fun id => !listed.contains id).Nodup := by
    refine Nodup.append (left.filter _) (right.filter _) ?_
    intro _ kept added
    have there := (mem_filter.mp kept).1
    have missing := (mem_filter.mp added).2
    rw [←same.mem_iff] at there
    simp [there] at missing
  refine (perm_ext_iff_of_nodup apart right).mpr fun id => ?_
  simp only [mem_append,mem_filter,Bool.not_eq_true',contains_eq_mem,decide_eq_false_iff_not,
    decide_eq_true_eq,same.mem_iff]
  constructor
  · intro either
    rcases either with kept | added
    · exact kept.2
    exact added.1
  intro mem
  by_cases there : id ∈ old
  · exact .inl ⟨there,mem⟩
  exact .inr ⟨mem,there⟩

theorem links_settled (sound : Sound t) (unique : (selected.map SopLinkRow.revisionId).Nodup)
    (listed : (current.map SopLinkRow.revisionId).Perm (t.links.map Link.revisionId))
    (done : batch (linkStatements mutation selected current) (advanced mutation t t.links) changes = some (after,counts)) :
    ∃ links, after = advanced mutation t links ∧ (links.map Link.revisionId).Perm (selected.map SopLinkRow.revisionId) ∧ ∀ link ∈ links, link.known t := by
  obtain ⟨_,same,rfl,known⟩ := links_made (holds_advanced mutation t t.links) done
  refine ⟨_,rfl,?_,?_⟩
  · rw [map_append,same,map_map]
    have kept : ((t.links.filter fun link => (selected.map SopLinkRow.revisionId).contains link.revisionId).map Link.revisionId) =
        (t.links.map Link.revisionId).filter (selected.map SopLinkRow.revisionId).contains := by
      rw [filter_map]
      rfl
    have new : (selected.filter fun row => !(current.map SopLinkRow.revisionId).contains row.revisionId).map (Link.revisionId ∘ linkOf mutation) =
          (selected.map SopLinkRow.revisionId).filter fun id => !(current.map SopLinkRow.revisionId).contains id := by
      rw [filter_map]
      rfl
    show (map _ (t.links.filter _)++_).Perm _
    rw [kept,new]
    exact merged_perm sound.distinct unique listed
  intro link mem
  rcases mem_append.mp mem with old | new
  · exact sound.known link (mem_filter.mp old).1
  exact known link new

theorem replaceFrom_obeys (ready : Ready name request.expectedVersion old) (sound : Sound old)
    (relied : Rely name old db) (unique : revisionIds.Nodup) : Obeys (terms name request)
      (replaceFrom name request.principal request.expectedVersion revisionIds current (loadLinkedSops old)) db := by
  unfold replaceFrom
  split
  · exact nofun
  apply reading
  intro third passed third_sound
  dsimp only
  split
  · exact nofun
  rename_i complete
  have ids := selectedSops_ids (Decidable.not_not.mp complete)
  split
  · exact nofun
  apply reading
  intro fourth gone fourth_sound
  have fourth_ready := ready.later ((relied.next passed).next gone)
  split
  · exact nofun
  rename_i sops listed
  apply submit_obeys fourth_ready
  refine ⟨rfl,rfl,fun t after changes counts missing done => links_idle missing done,?_⟩
  intro t _ _ _ later sound_t current done
  have far : Rely name old t := ((relied.next passed).next gone).next later
  have links : ((loadLinkedSops old).map SopLinkRow.revisionId).Perm (t.links.map Link.revisionId) := by
    rw [(ready.same far current).links]
    exact loadLinkedSops_ids sound
  obtain ⟨links,rfl,same,known⟩ := links_settled sound_t (ids.nodup_iff.mpr unique) links done
  refine ⟨links,rfl,?_,?_,known,?_⟩
  · show (((loadAttachments fourth).map attachmentDto).map AttachmentDto.id).Perm ((t.attachments++[]).map _)
    rw [append_nil]
    exact attachments_later fourth_ready fourth_sound later current
  · show (sops.map SopLinkDto.revisionId).Perm _
    rw [mapM_read SopLinkDto.revisionId SopLinkRow.revisionId sopLinkDto_revisionId listed]
    exact same.symm
  exact same.nodup_iff.mpr (ids.nodup_iff.mpr unique)

theorem replaceSopLinks_obeys (ready : Ready name request.expectedVersion db) (unique : revisionIds.Nodup) : Obeys (terms name request)
      (replaceSopLinks name request.principal request.expectedVersion revisionIds linksFirst) db := by
  apply reading
  intro first relied first_sound
  have first_ready := ready.later relied
  apply reading
  intro second passed second_sound
  split
  · exact replaceFrom_obeys first_ready first_sound passed unique
  exact replaceFrom_obeys (first_ready.later passed) second_sound Unchanged.rfl.rely unique
end

theorem discipline : Discipline setting Sound terms where
  same _ _ _ := Unchanged.rfl.rely
  trans _ _ := Rely.next
  stable name request result s t posted relied won := by
    obtain ⟨revision,mem,version,own⟩ := posted won
    exact ⟨revision,relied.revisions.subset mem,version,own⟩
  inside _ _ _ sound _ := sound
  entered name request db sound entered := by
    have ready : Ready name request.expectedVersion db := ⟨sound.returned _ entered.1,entered.2⟩
    show Obeys _ (code name request) db
    unfold code
    split
    · exact saveScope_obeys ready
    · exact addAttachment_obeys ready
    exact replaceSopLinks_obeys ready (by assumption)
  outside s t sound moved := ⟨outside_sound sound moved,fun _ _ => moved.unchanged.rely⟩
  kept name request s t next _ _ guaranteed := by
    refine ⟨guaranteed.1,fun other different asked => ?_⟩
    rcases guaranteed.2 with rfl | ⟨-,advances⟩
    · exact Unchanged.rfl.rely
    exact advances.rely different

abbrev Briefs := System Db Nat Request Outcome
abbrev Taken := Transition Briefs (Event Nat Request)

def Requested (name : Nat) (event : Event Nat Request) : Prop := event = .call name ∨ event = .failed name

structure Concurrent (history : List Taken) (final : Briefs) : Prop where
  single : ∀ one other request asked, final.programs one = some (request,.done .won) →
    final.programs other = some (asked,.done .won) → request.expectedVersion = asked.expectedVersion → one = other
  versions : final.store.revisions.map Revision.version = range' 1 (currentVersion final.store)
  latest : final.store.revisions.getLast?.map Revision.snapshot = final.store.brief.map Brief.snapshot
  attached : ∀ revision ∈ final.store.revisions, revision.snapshot.attachmentIds.Perm (attachedBy final.store revision.version)
  linked : ∀ taken ∈ history, ∀ revision ∈ final.store.revisions, revision.version = currentVersion taken.after.store →
    revision.snapshot.revisionIds.Perm (taken.after.store.links.map Link.revisionId)
  losers : ∀ taken ∈ history, ∀ name, Requested name taken.event →
    (∀ request, taken.after.programs name ≠ some (request,.done .won)) → Unchanged taken.before.store taken.after.store

theorem revision_unique (sound : Sound db) (one : first ∈ db.revisions) (other : second ∈ db.revisions)
    (same : first.version = second.version) : first = second := by
  have distinct : (db.revisions.map Revision.version).Nodup := by
    rw [sound.versions]
    exact nodup_range'
  exact inj_on_of_nodup_map distinct one other same

theorem single_winner (orderly : Orderly Sound terms final)
    (first : final.programs one = some (request,.done .won)) (second : final.programs other = some (asked,.done .won))
    (same : request.expectedVersion = asked.expectedVersion) : one = other := by
  obtain ⟨_,stored,version,own⟩ := orderly.result first rfl
  obtain ⟨_,kept,again,mine⟩ := orderly.result second rfl
  have equal := revision_unique orderly.valid stored kept (by rw [version,again,same])
  rw [←own,←mine,equal]

section
variable {before after : Briefs} (orderly : Orderly Sound terms before) (moved : Step setting before event after)
include before after orderly moved

theorem step_losers (requested : Requested name event) (lost : ∀ request, after.programs name ≠ some (request,.done .won)) :
    Unchanged before.store after.store := by
  rcases discipline.effect orderly moved with same | ⟨rfl,-⟩ | ⟨other,request,program,rfl,stored,-,guaranteed⟩
  · rw [same]
    exact Unchanged.rfl
  · rcases requested with equal | equal
    · cases equal
    · cases equal
  rcases guaranteed.2 with same | ⟨rfl,-⟩
  · rw [same]
    exact Unchanged.rfl
  rcases requested with equal | equal
  · cases equal
    exact absurd stored (lost request)
  cases equal

theorem step_revisions : before.store.revisions <+: after.store.revisions := by
  rcases discipline.effect orderly moved with same | ⟨-,outside⟩ | ⟨name,request,program,-,-,-,guaranteed⟩
  · rw [same]
  · rw [outside.revisions]
  rcases guaranteed.2 with same | ⟨-,advances⟩
  · rw [same]
  obtain ⟨_,revisions,-⟩ := advances.revisions
  rw [revisions]
  exact prefix_append ..
end

theorem current_linked (sound : Sound db) (revision : Revision) (mem : revision ∈ db.revisions)
    (current : revision.version = currentVersion db) : revision.snapshot.revisionIds.Perm (db.links.map Link.revisionId) := by
  have latest := sound.latest
  have order := sound.versions
  cases stored : db.brief with
  | none =>
    have none_ : currentVersion db = 0 := by
      unfold currentVersion
      rw [stored]
      rfl
    have place : revision.version ∈ range' 1 (currentVersion db) := by
      rw [←order]
      exact mem_map_of_mem mem
    rw [none_] at place
    cases place
  | some brief =>
    rw [stored] at latest
    obtain ⟨final,last,same⟩ := Option.map_eq_some_iff.mp latest
    have version : final.version = currentVersion db := by
      have ends : (db.revisions.map Revision.version).getLast? = some final.version := by
        rw [List.getLast?_map,last]
        rfl
      have positive := sound.positive brief stored
      have current_ : currentVersion db = brief.version := by
        unfold currentVersion
        rw [stored]
        rfl
      rw [order,current_,List.getLast?_range',if_neg (by omega)] at ends
      have number := Option.some.inj ends
      omega
    cases revision_unique sound mem (List.mem_of_getLast? last) (current.trans version.symm)
    rw [same]
    exact sound.linked brief stored

structure Kept (history : List Taken) (current : Briefs) : Prop where
  orderly : Orderly Sound terms current
  sound : ∀ taken ∈ history, Sound taken.after.store
  revisions : ∀ taken ∈ history, taken.after.store.revisions <+: current.store.revisions
  losers : ∀ taken ∈ history, ∀ name, Requested name taken.event →
    (∀ request, taken.after.programs name ≠ some (request,.done .won)) → Unchanged taken.before.store taken.after.store

theorem Kept.step (kept : Kept history before) (ran : Recorded (Step setting) before taken after) : Kept (history++[taken]) after := by
  obtain ⟨rfl,rfl,moved⟩ := ran
  have orderly := discipline.step kept.orderly moved
  refine ⟨orderly,?_,?_,?_⟩
  · intro other mem
    rcases mem_snoc.mp mem with old | rfl
    · exact kept.sound other old
    exact orderly.valid
  · intro other mem
    rcases mem_snoc.mp mem with old | rfl
    · exact (kept.revisions other old).trans (step_revisions kept.orderly moved)
    exact prefix_rfl
  intro other mem name requested lost
  rcases mem_snoc.mp mem with old | rfl
  · exact kept.losers other old name requested lost
  exact step_losers kept.orderly moved requested lost

theorem brief_concurrent
    (path : Runs (Recorded (Step setting)) (System.initial (Db.initial staff documents sopRevisions)) history final) :
    Concurrent history final := by
  have kept : Kept history final := by
    refine path.preserves_history Kept (fun _ _ _ _ kept ran => kept.step ran) ?_
    exact ⟨Orderly.started _ (initial_sound _ _ _),forall_mem_nil _,forall_mem_nil _,forall_mem_nil _⟩
  have sound := kept.orderly.valid
  refine ⟨fun one other request asked => single_winner kept.orderly,sound.versions,sound.latest,sound.attached,?_,kept.losers⟩
  intro taken member revision stored version
  have earlier := kept.sound taken member
  have place : revision.version ∈ range' 1 (currentVersion final.store) := by
    rw [←sound.versions]
    exact mem_map_of_mem stored
  have counted : currentVersion taken.after.store ∈ taken.after.store.revisions.map Revision.version := by
    have bound := mem_range'_1.mp place
    rw [earlier.versions]
    exact mem_range'_1.mpr (by omega)
  obtain ⟨_,there,number⟩ := mem_map.mp counted
  cases revision_unique sound stored ((kept.revisions taken member).subset there) (version.trans number.symm)
  exact current_linked earlier revision there number

def pilot : Principal := ⟨"pilot","pilot@example.com","Pilot"⟩
def empty : Db := .initial (fun id => if id = "pilot" then some "Pilot" else none) (fun _ => none) (fun _ => none)
def scopeRequest : Request := ⟨pilot,0,.scope [⟨"roof","survey","Roof","Fly the roof",0,none⟩]⟩
def attachmentRequest : Request := ⟨pilot,0,.attachment ⟨"a",.staffUpload,none,"key","plan.kml","text/xml",9,"tag"⟩⟩
def readVersion (db : Db) : Db := { db with returned := currentVersion db :: db.returned }

theorem readVersion_outside : Outside empty (readVersion empty) :=
  ⟨rfl,rfl,rfl,rfl,rfl,fun _ known => known,fun _ known => known,fun _ _ stored => stored,fun _ mem => by
    cases mem_singleton.mp mem
    exact .inl rfl⟩

def sampleEvents : List (Event Nat Request) :=
  [.outside,.start 0 scopeRequest,.start 1 attachmentRequest,.call 0,.call 1,.call 0,.call 1,.call 0,.call 1,.call 1]

def sampleFinal : Briefs := sampleEvents.foldl (System.play setting readVersion) (System.initial empty)

theorem brief_concurrent_example : Concurrent (trace (System.play setting readVersion) (System.initial empty) sampleEvents) sampleFinal ∧
      sampleFinal.programs 0 = some (scopeRequest,.done .won) ∧ sampleFinal.programs 1 = some (attachmentRequest,.done .lost) :=
  ⟨brief_concurrent (System.played ⟨readVersion_outside,⟨rfl,mem_singleton_self _,nofun⟩,
    ⟨rfl,mem_singleton_self _,nofun⟩,trivial,trivial,trivial,trivial,trivial,trivial,trivial,trivial⟩),rfl,rfl⟩
end LedgeTopOps.JobBriefs
