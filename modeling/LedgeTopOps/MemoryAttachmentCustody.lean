import LedgeTopOps.MemoryAttachments

namespace LedgeTopOps.MemoryAttachments
open List KeyedRows StepRuns
open Function (update_of_ne update_self update)

structure Tables (w : World) : Prop where
  keyed : Keyed Intent.key w.intents
  distinct : Keyed Intent.attachment w.intents
  below : ∀ r ∈ w.intents, r.attachment < w.nextId
  done : ∀ a ∈ w.attachments, a.id < w.nextId ∧ ∀ r ∈ w.intents, r.attachment = a.id → r.status = .completed
  kept : ∀ a ∈ w.attachments, ∃ o, w.bucket a.id = some o ∧ o.etag = a.etag ∧ o.file = a.file
  written : ∀ r ∈ w.intents, r.status = .objectWritten → ∃ o, w.bucket r.attachment = some o ∧ r.etag = some o.etag ∧ o.file = r.request.file
  cleaned : ∀ r ∈ w.intents, r.status = .cleanupComplete → w.bucket r.attachment = none
  receipts : w.attachments.map Attachment.key = w.receipts.map Prod.fst
  single : (w.receipts.map Prod.fst).Nodup

def CleanerPc.mine : CleanerPc → Option Intent
  | .referenced mine | .head mine | .delete mine | .check mine | .complete mine => some mine
  | .row | .fail _ _ | .ended => none

def Works (w : World) (k : Key) (mine : Option Intent) (r : Intent) : Prop :=
  r ∈ w.intents ∧ r.key = k ∧ r.status = .cleanupPending ∧ r.claimed = true ∧ ∀ m, mine = some m → m.attachment = r.attachment

structure Claims (w : World) : Prop where
  named : Keyed Cleaner.name w.cleaners
  held : ∀ c ∈ w.cleaners, c.pc.working = true → ∃ r, Works w c.key c.pc.mine r
  alone : ∀ c ∈ w.cleaners, ∀ d ∈ w.cleaners, c.pc ≠ .ended → d.pc ≠ .ended → c.key = d.key → c = d
  gone : ∀ c ∈ w.cleaners, ∀ mine, c.pc = .complete mine → w.bucket mine.attachment = none

structure Sound (w : World) : Prop where
  tables : Tables w
  claims : Claims w

theorem working_runs {pc : CleanerPc} (works : pc.working) : pc ≠ .ended := by
  intro is
  rw [is] at works
  cases works

def Keeps (change : Intent → Intent) : Prop := ∀ r, (change r).key = r.key ∧ (change r).attachment = r.attachment ∧ (change r).request = r.request

theorem Keeps.ite {p : Intent → Prop} [DecidablePred p] (same : Keeps change) : Keeps fun r => if p r then change r else r := fun r => by
  dsimp only
  split
  · exact same r
  · exact ⟨rfl,rfl,rfl⟩

section
theorem revised_tables (tables : Tables w) (same : Keeps change) (completed : ∀ r ∈ w.intents, r.status = .completed → (change r).status = .completed)
    (written : ∀ r ∈ w.intents, (change r).status = .objectWritten →
      ∃ o, w.bucket r.attachment = some o ∧ (change r).etag = some o.etag ∧ o.file = r.request.file)
    (cleaned : ∀ r ∈ w.intents, (change r).status = .cleanupComplete → w.bucket r.attachment = none) : Tables { w with intents := w.intents.map change } := by
  have keys : (w.intents.map change).map Intent.key = w.intents.map Intent.key := by
    rw [map_map]
    exact map_congr_left fun r _ => (same r).1
  have attachments : (w.intents.map change).map Intent.attachment = w.intents.map Intent.attachment := by
    rw [map_map]
    exact map_congr_left fun r _ => (same r).2.1
  refine ⟨?_,?_,fun r mem => ?_,fun a mem => ⟨(tables.done a mem).1,fun r listed is => ?_⟩,tables.kept,fun r mem status => ?_,
    fun r mem status => ?_,tables.receipts,tables.single⟩
  · rw [Keyed,keys]
    exact tables.keyed
  · rw [Keyed,attachments]
    exact tables.distinct
  · obtain ⟨old,there,rfl⟩ := mem_map.mp mem
    rw [(same old).2.1]
    exact tables.below old there
  · obtain ⟨old,there,rfl⟩ := mem_map.mp listed
    rw [(same old).2.1] at is
    exact completed old there ((tables.done a mem).2 old there is)
  · obtain ⟨old,there,rfl⟩ := mem_map.mp mem
    rw [(same old).2.1,(same old).2.2]
    exact written old there status
  obtain ⟨old,there,rfl⟩ := mem_map.mp mem
  rw [(same old).2.1]
  exact cleaned old there status

theorem revised_claims (claims : Claims w) (same : Keeps change)
    (stays : ∀ c ∈ w.cleaners, c.pc.working → ∀ r ∈ w.intents, r.key = c.key → r.status = .cleanupPending → r.claimed →
      (change r).status = .cleanupPending ∧ (change r).claimed) : Claims { w with intents := w.intents.map change } := by
  refine ⟨claims.named,fun c mem works => ?_,claims.alone,claims.gone⟩
  obtain ⟨r,there,key,status,claimed,mine⟩ := claims.held c mem works
  obtain ⟨pending,held⟩ := stays c mem works r there key status claimed
  exact ⟨change r,mem_map_of_mem there,(same r).1.trans key,pending,held,fun m is => (mine m is).trans (same r).2.1.symm⟩

theorem amended_tables (tables : Tables w) (k : Key) (same : Keeps change)
    (completed : ∀ r ∈ w.intents, r.key = k → r.status = .completed → (change r).status = .completed)
    (written : ∀ r ∈ w.intents, r.key = k → (change r).status = .objectWritten →
      ∃ o, w.bucket r.attachment = some o ∧ (change r).etag = some o.etag ∧ o.file = r.request.file)
    (cleaned : ∀ r ∈ w.intents, r.key = k → (change r).status = .cleanupComplete → w.bucket r.attachment = none) :
    Tables { w with intents := amend Intent.key w.intents k change } := by
  refine revised_tables tables same.ite (fun r mem status => ?_) (fun r mem status => ?_) fun r mem status => ?_
  · split
    · rename_i here
      exact completed r mem here status
    · exact status
  · split at status
    · rename_i here
      rw [if_pos here]
      exact written r mem here status
    · rename_i apart
      rw [if_neg apart]
      exact tables.written r mem status
  split at status
  · rename_i here
    exact cleaned r mem here status
  · exact tables.cleaned r mem status

theorem amended_claims (claims : Claims w) (k : Key) (same : Keeps change)
    (stays : ∀ c ∈ w.cleaners, c.key = k → c.pc.working → ∀ r ∈ w.intents, r.key = k → r.status = .cleanupPending → r.claimed →
      (change r).status = .cleanupPending ∧ (change r).claimed) : Claims { w with intents := amend Intent.key w.intents k change } := by
  refine revised_claims claims same.ite fun c mem works r there key status claimed => ?_
  split
  · rename_i here
    exact stays c mem (key.symm.trans here) works r there here status claimed
  exact ⟨status,claimed⟩
end

section

theorem mem_moved (claims : Claims w) (mem : c ∈ w.cleaners) {d : Cleaner} (moved : d ∈ (w.moves c pc).cleaners) :
    (d ∈ w.cleaners ∧ d.name ≠ c.name) ∨ d = { c with pc := pc } := by
  rcases mem_amend.mp moved with old | ⟨old,there,named,rfl⟩
  · exact .inl old
  cases claims.named.unique there mem named
  exact .inr rfl

theorem moved_claims (pc : CleanerPc) (claims : Claims w) (mem : c ∈ w.cleaners) (runs : c.pc ≠ .ended)
    (held : pc.working → ∃ r, Works w c.key pc.mine r) (gone : ∀ mine, pc = .complete mine → w.bucket mine.attachment = none) : Claims (w.moves c pc) := by
  refine ⟨claims.named.amend _ fun _ _ _ => rfl,fun d moved works => ?_,fun d first e second => ?_,fun d moved mine is => ?_⟩
  · rcases mem_moved claims mem moved with ⟨old,_⟩ | rfl
    · exact claims.held d old works
    · exact held works
  · rcases mem_moved claims mem first with ⟨old,apart⟩ | rfl
    · rcases mem_moved claims mem second with ⟨other,_⟩ | rfl
      · exact claims.alone d old e other
      · exact fun left _ key => absurd (congrArg Cleaner.name (claims.alone d old c mem left runs key)) apart
    · rcases mem_moved claims mem second with ⟨other,apart⟩ | rfl
      · exact fun _ right key => absurd (congrArg Cleaner.name (claims.alone c mem e other runs right key)).symm apart
      · exact fun _ _ _ => rfl
  rcases mem_moved claims mem moved with ⟨old,_⟩ | rfl
  · exact claims.gone d old mine is
  · exact gone mine is

theorem moved_alone (claims : Claims w) (mem : c ∈ w.cleaners) (runs : c.pc ≠ .ended) :
    ∀ d ∈ (w.moves c .ended).cleaners, d.key = c.key → d.pc.working = false := by
  intro d moved key
  rcases mem_moved claims mem moved with ⟨old,apart⟩ | rfl
  · by_contra works
    rw [Bool.not_eq_false] at works
    exact apart (congrArg Cleaner.name (claims.alone d old c mem (working_runs works) runs key))
  rfl
end

theorem tables_of (tables : Tables w) (intents : v.intents = w.intents) (attachments : v.attachments = w.attachments)
    (receipts : v.receipts = w.receipts) (bucket : v.bucket = w.bucket) (nextId : v.nextId = w.nextId) : Tables v := by
  obtain ⟨a,b,c,d,e,f⟩ := v
  cases intents
  cases attachments
  cases receipts
  cases bucket
  cases nextId
  exact ⟨tables.keyed,tables.distinct,tables.below,tables.done,tables.kept,tables.written,tables.cleaned,tables.receipts,tables.single⟩

theorem goes_sound (sound : Sound v) (u : Upload) (pc : UploadPc) : Sound (v.goes u pc) :=
  ⟨tables_of sound.tables rfl rfl rfl rfl rfl,⟨sound.claims.named,sound.claims.held,sound.claims.alone,sound.claims.gone⟩⟩

theorem moved_tables (tables : Tables w) : Tables (w.moves c pc) := tables_of tables rfl rfl rfl rfl rfl

variable (sound : Sound w)
include sound

theorem put_sound (free : w.bucket x = none)
    (finishing : ∀ c ∈ w.cleaners, c.pc.finishing x = false) (open_ : ∀ r ∈ w.intents, r.attachment = x → r.status ≠ .cleanupComplete) :
    Sound { w with bucket := update w.bucket x (some o) } := by
  obtain ⟨tables,claims⟩ := sound
  have apart : ∀ y p, w.bucket y = some p → update w.bucket x (some o) y = some p := fun y p is => by
    rw [update_of_ne]
    · exact is
    · intro same
      rw [same,free] at is
      cases is
  refine ⟨⟨tables.keyed,tables.distinct,tables.below,tables.done,fun a mem => ?_,fun r mem status => ?_,fun r mem status => ?_,tables.receipts,
    tables.single⟩,⟨claims.named,claims.held,claims.alone,fun c mem mine is => ?_⟩⟩
  · obtain ⟨p,is,same⟩ := tables.kept a mem
    exact ⟨p,apart _ _ is,same⟩
  · obtain ⟨p,is,same⟩ := tables.written r mem status
    exact ⟨p,apart _ _ is,same⟩
  · show update w.bucket x (some o) r.attachment = none
    rw [update_of_ne fun same => open_ r mem same status]
    exact tables.cleaned r mem status
  have other : mine.attachment ≠ x := fun same => by
    have none := finishing c mem
    rw [is] at none
    exact of_decide_eq_false none same
  show update w.bucket x (some o) mine.attachment = none
  rw [update_of_ne other]
  exact claims.gone c mem mine is

theorem delete_sound (works : Works w k (some mine) r) : Sound { w with bucket := update w.bucket mine.attachment none } := by
  obtain ⟨tables,claims⟩ := sound
  obtain ⟨mem,_,status,_,own⟩ := works
  have same := own mine rfl
  refine ⟨⟨tables.keyed,tables.distinct,tables.below,tables.done,fun a listed => ?_,fun x there written => ?_,fun x there cleaned => ?_,tables.receipts,
    tables.single⟩,⟨claims.named,claims.held,claims.alone,fun c there other is => ?_⟩⟩
  · have apart : a.id ≠ mine.attachment := fun is => by
      have completed := (tables.done a listed).2 r mem (same.symm.trans is.symm)
      rw [status] at completed
      cases completed
    obtain ⟨o,is,columns⟩ := tables.kept a listed
    exact ⟨o,(update_of_ne apart ..).trans is,columns⟩
  · have apart : x.attachment ≠ mine.attachment := fun is => by
      cases tables.distinct.unique there mem (is.trans same)
      rw [status] at written
      cases written
    obtain ⟨o,is,columns⟩ := tables.written x there written
    exact ⟨o,(update_of_ne apart ..).trans is,columns⟩
  · by_cases is : x.attachment = mine.attachment
    · exact (congrArg _ is).trans (update_self ..)
    · exact (update_of_ne is ..).trans (tables.cleaned x there cleaned)
  by_cases here : other.attachment = mine.attachment
  · exact (congrArg _ here).trans (update_self ..)
  exact (update_of_ne here ..).trans (claims.gone c there other is)

theorem insert_sound (request : Request) : Sound (w.insert request) := by
  unfold World.insert
  split
  · exact sound
  rename_i absent
  split
  · obtain ⟨tables,claims⟩ := sound
    refine ⟨⟨?_,?_,fun r mem => ?_,fun a listed => ⟨Nat.lt_succ_of_lt (tables.done a listed).1,fun r mem is => ?_⟩,tables.kept,
      fun r mem status => ?_,fun r mem status => ?_,tables.receipts,tables.single⟩,⟨claims.named,fun c mem works => ?_,claims.alone,claims.gone⟩⟩
    · exact tables.keyed.add fun r mem same => absent (any_eq_true.mpr ⟨r,mem,decide_eq_true same⟩)
    · exact tables.distinct.add fun r mem same => Nat.ne_of_lt (tables.below r mem) same
    · rcases mem_snoc.mp mem with old | rfl
      · exact Nat.lt_succ_of_lt (tables.below r old)
      · exact Nat.lt_succ_self _
    · rcases mem_snoc.mp mem with old | rfl
      · exact (tables.done a listed).2 r old is
      · exact absurd is.symm (Nat.ne_of_lt (tables.done a listed).1)
    · rcases mem_snoc.mp mem with old | rfl
      · exact tables.written r old status
      · cases status
    · rcases mem_snoc.mp mem with old | rfl
      · exact tables.cleaned r old status
      · cases status
    obtain ⟨r,there,rest⟩ := claims.held c mem works
    exact ⟨r,mem_append_left _ there,rest⟩
  exact sound

theorem prune_sound (old : Key → Bool) : Sound (w.prune old) := by
  obtain ⟨tables,claims⟩ := sound
  have listed : ∀ r ∈ (w.prune old).intents, r ∈ w.intents := fun r mem => (mem_filter.mp mem).1
  refine ⟨⟨Nodup.sublist (Sublist.map _ filter_sublist) tables.keyed,Nodup.sublist (Sublist.map _ filter_sublist) tables.distinct,
    fun r mem => tables.below r (listed r mem),fun a mem => ⟨(tables.done a mem).1,fun r there => (tables.done a mem).2 r (listed r there)⟩,
    tables.kept,fun r mem => tables.written r (listed r mem),fun r mem => tables.cleaned r (listed r mem),tables.receipts,tables.single⟩,
    ⟨claims.named,fun c mem works => ?_,claims.alone,claims.gone⟩⟩
  obtain ⟨r,there,key,status,rest⟩ := claims.held c mem works
  refine ⟨r,mem_filter.mpr ⟨there,?_⟩,key,status,rest⟩
  rw [status]
  rfl

theorem abandon_sound (old : Key → Bool) : Sound (w.abandon old) := by
  have same : Keeps fun r => if (r.status = .prepared ∨ r.status = .objectWritten) ∧ old r.key = true then
      { r with status := .cleanupPending, claimed := false } else r := .ite fun _ => ⟨rfl,rfl,rfl⟩
  refine ⟨revised_tables sound.tables same (fun r mem status => ?_) (fun r mem status => ?_) fun r mem status => ?_,
    revised_claims sound.claims same fun c mem works r there key status claimed => ?_⟩
  · rw [if_neg]
    · exact status
    · rintro ⟨either,_⟩
      rw [status] at either
      exact either.elim nofun nofun
  · split at status
    · cases status
    · rename_i kept
      rw [if_neg kept]
      exact sound.tables.written r mem status
  · split at status
    · cases status
    · exact sound.tables.cleaned r mem status
  rw [if_neg]
  · exact ⟨status,claimed⟩
  · rintro ⟨either,_⟩
    rw [status] at either
    exact either.elim nofun nofun

theorem schedule_sound (k : Key) (idle : ∀ c ∈ w.cleaners, c.key = k → c.pc.working = false) : Sound (w.scheduleCleanup k) := by
  have same : Keeps fun r => if r.status = .prepared ∨ r.status = .objectWritten ∨ r.status = .cleanupPending then
      { r with status := .cleanupPending, claimed := false } else r := .ite fun _ => ⟨rfl,rfl,rfl⟩
  refine ⟨amended_tables sound.tables k same (fun r _ _ status => ?_) (fun r mem _ status => ?_) fun r mem _ status => ?_,
    amended_claims sound.claims k same fun c mem key works => ?_⟩
  · rw [if_neg]
    · exact status
    · rw [status]
      exact nofun
  · split at status
    · cases status
    · rename_i kept
      rw [if_neg kept]
      exact sound.tables.written r mem status
  · split at status
    · cases status
    · exact sound.tables.cleaned r mem status
  rw [idle c mem key] at works
  cases works

theorem promote_sound (is : w.promote k etag = some v)
    (there : ∀ r ∈ w.intents, r.key = k → ∃ o, w.bucket r.attachment = some o ∧ o.etag = etag ∧ o.file = r.request.file) : Sound v := by
  unfold World.promote at is
  split at is
  · rename_i r found
    split at is
    · rename_i may
      cases is
      obtain ⟨mem,key⟩ := find_some found
      unfold Intent.promotable at may
      rw [Bool.and_eq_true,Bool.and_eq_true,Bool.not_eq_true'] at may
      have same : Keeps fun r => { r with status := .objectWritten, etag := some etag } := fun _ => ⟨rfl,rfl,rfl⟩
      refine ⟨amended_tables sound.tables k same (fun x listed here status => ?_) (fun x listed here _ => ?_) (fun _ _ _ status => ?_),
        amended_claims sound.claims k same fun c _ _ _ x listed here _ claimed => ?_⟩
      · cases sound.tables.keyed.unique listed mem (here.trans key.symm)
        rw [status] at may
        exact absurd may.1.1 (by decide)
      · obtain ⟨o,stored,seen,file⟩ := there x listed here
        exact ⟨o,stored,congrArg some seen.symm,file⟩
      · cases status
      cases sound.tables.keyed.unique listed mem (here.trans key.symm)
      rw [claimed] at may
      cases may.1.2
    cases is
  cases is

theorem commit_sound (is : w.commit k mine etag = some v) : Sound v := by
  unfold World.commit at is
  split at is
  · rename_i r found
    split at is
    · rename_i may
      cases is
      obtain ⟨written,unclaimed,attachment,request,seen,fresh,_⟩ := may
      obtain ⟨mem,key⟩ := find_some found
      have same : Keeps fun r => { r with status := .completed } := fun _ => ⟨rfl,rfl,rfl⟩
      have tables := amended_tables sound.tables k same (fun _ _ _ _ => rfl) (fun _ _ _ status => nomatch status) fun _ _ _ status => nomatch status
      have claims := amended_claims sound.claims k same fun c _ _ _ x listed here _ claimed => by
        cases sound.tables.keyed.unique listed mem (here.trans key.symm)
        rw [claimed] at unclaimed
        cases unclaimed
      refine ⟨⟨tables.keyed,tables.distinct,tables.below,fun a listed => ?_,fun a listed => ?_,tables.written,tables.cleaned,?_,?_⟩,
        ⟨claims.named,claims.held,claims.alone,claims.gone⟩⟩
      · rcases mem_snoc.mp listed with old | rfl
        · exact tables.done a old
        · refine ⟨attachment ▸ sound.tables.below r mem,fun x there same => ?_⟩
          rcases mem_amend.mp there with ⟨old,apart⟩ | ⟨old,_,_,rfl⟩
          · exact absurd (congrArg Intent.key (sound.tables.distinct.unique old mem (same.trans attachment.symm))) fun is => apart (is.trans key)
          rfl
      · rcases mem_snoc.mp listed with old | rfl
        · exact tables.kept a old
        · obtain ⟨o,stored,own,file⟩ := sound.tables.written r mem written
          rw [seen] at own
          cases own
          rw [attachment] at stored
          exact ⟨o,stored,rfl,file.trans (congrArg Request.file request)⟩
      · rw [map_append,map_append,tables.receipts]
        rfl
      rw [map_append]
      refine nodup_append.mpr ⟨tables.single,nodup_singleton _,fun x there y here same => ?_⟩
      cases mem_singleton.mp here
      obtain ⟨receipt,listed,rfl⟩ := mem_map.mp there
      have present : w.receipted k := any_eq_true.mpr ⟨receipt,listed,decide_eq_true same⟩
      rw [fresh] at present
      cases present
    cases is
  cases is
end LedgeTopOps.MemoryAttachments
