import LedgeTopOps.MemoryAttachmentCustody

namespace LedgeTopOps.MemoryAttachments
open List KeyedRows StepRuns

section

theorem put_call (sound : Sound w) (at_ : u.pc = .put mine) (is : w.call u etag = some v) (fair : w.fair u) : Sound v := by
  unfold World.call at is
  unfold World.fair at fair
  rw [at_] at is fair
  dsimp only at is fair
  cases free : w.bucket mine.attachment with
  | some =>
    rw [free] at is
    cases is
    exact goes_sound sound u _
  | none =>
    rw [free] at is fair
    cases is
    rw [Option.isSome_none,Bool.false_or,Bool.and_eq_true,Bool.not_eq_true',any_eq_false,all_eq_true] at fair
    refine goes_sound (put_sound sound free (fun c mem => ?_) fun r mem same status => ?_) u _
    · rw [←Bool.not_eq_true]
      exact fair.1 c mem
    have open_ := fair.2 r mem
    rw [Bool.or_eq_true,decide_eq_true_eq,decide_eq_true_eq] at open_
    exact open_.elim (fun apart => apart same) fun other => other status

theorem promote_call (sound : Sound w) (at_ : u.pc = .promote mine seen) (is : w.call u etag = some v) (fair : w.fair u) : Sound v := by
  unfold World.call at is
  unfold World.fair at fair
  rw [at_] at is fair
  dsimp only at is fair
  cases promoted : w.promote u.request.key seen with
  | none =>
    rw [promoted] at is
    cases is
    exact goes_sound sound u _
  | some after =>
    rw [promoted] at is
    cases is
    refine goes_sound (promote_sound sound promoted fun r mem key => ?_) u _
    have found := sound.tables.keyed.find mem
    rw [key] at found
    unfold World.promote at promoted
    rw [found] at fair promoted
    dsimp only at promoted
    split at promoted
    · rename_i may
      rw [Option.all_some,may,Bool.not_true,Bool.false_or] at fair
      obtain ⟨o,stored,own⟩ := (Option.any_eq_true _ _).mp fair
      rw [Bool.and_eq_true,decide_eq_true_eq,decide_eq_true_eq] at own
      exact ⟨o,stored,own⟩
    cases promoted

theorem call_sound (sound : Sound w) (is : w.call u etag = some v) (fair : w.fair u) : Sound v := by
  cases at_ : u.pc with
  | put => exact put_call sound at_ is fair
  | promote => exact promote_call sound at_ is fair
  | insert =>
    unfold World.call at is
    rw [at_] at is
    cases is
    exact goes_sound (insert_sound sound u.request) u _
  | commit mine seen =>
    unfold World.call at is
    rw [at_] at is
    dsimp only at is
    cases committed : w.commit u.request.key mine seen with
    | none =>
      rw [committed] at is
      cases is
      exact goes_sound sound u _
    | some =>
      rw [committed] at is
      cases is
      exact goes_sound (commit_sound sound committed) u _
  | schedule =>
    unfold World.call at is
    unfold World.fair at fair
    rw [at_] at is fair
    cases is
    rw [Bool.not_eq_true',any_eq_false] at fair
    refine goes_sound (schedule_sound sound u.request.key fun c mem key => ?_) u _
    have idle := fair c mem
    rw [key,decide_eq_true rfl,Bool.true_and,Bool.not_eq_true] at idle
    exact idle
  | ended =>
    unfold World.call at is
    rw [at_] at is
    cases is
  | _ =>
    unfold World.call at is
    rw [at_] at is
    cases is
    exact goes_sound sound u _
end

section

section
variable (sound : Sound w)
include sound

theorem works_found (works : Works w k mine r) (found : find Intent.key w.intents k = some x) : x = r := by
  obtain ⟨mem,key⟩ := find_some found
  exact sound.tables.keyed.unique mem works.1 (key.trans works.2.1.symm)

theorem complete_sound (mem : c ∈ w.cleaners) (at_ : c.pc = .complete mine) : Sound ((w.complete c.key).moves c .ended) := by
  have runs : c.pc ≠ .ended := by
    rw [at_]
    exact nofun
  obtain ⟨r,works⟩ := sound.claims.held c mem (by rw [at_]; rfl)
  have claims := moved_claims .ended sound.claims mem runs nofun nofun
  have same : Keeps fun r => if r.status = .cleanupPending ∧ r.claimed = true then { r with status := .cleanupComplete, claimed := false } else r := .ite fun _ => ⟨rfl,rfl,rfl⟩
  refine ⟨amended_tables (moved_tables sound.tables) c.key same (fun x _ _ status => ?_) (fun x there _ status => ?_) fun x there key status => ?_,
    amended_claims claims c.key same fun d there key works => ?_⟩
  · rw [if_neg]
    · exact status
    · rw [status]
      exact nofun
  · split at status
    · cases status
    · rename_i kept
      rw [if_neg kept]
      exact sound.tables.written x there status
  · split at status
    · cases sound.tables.keyed.unique there works.1 (key.trans works.2.1.symm)
      rw [at_] at works
      have gone := sound.claims.gone c mem mine at_
      rw [works.2.2.2.2 mine rfl] at gone
      exact gone
    · exact sound.tables.cleaned x there status
  rw [moved_alone sound.claims mem runs d there key] at works
  cases works

theorem giveBack_sound (mem : c ∈ w.cleaners) (runs : c.pc ≠ .ended) : Sound ((w.giveBack c.key terminal).moves c .ended) := by
  have claims := moved_claims .ended sound.claims mem runs nofun nofun
  have same : Keeps fun r => if r.status = .cleanupPending then
      { r with status := if terminal then .cleanupFailed else .cleanupPending, claimed := false } else r := .ite fun _ => ⟨rfl,rfl,rfl⟩
  refine ⟨amended_tables (moved_tables sound.tables) c.key same (fun x _ _ status => ?_) (fun x there _ status => ?_) fun x there key status => ?_,
    amended_claims claims c.key same fun d there key works => ?_⟩
  · rw [if_neg]
    · exact status
    · rw [status]
      exact nofun
  · split at status
    · cases terminal with
      | true | false => cases status
    · rename_i kept
      rw [if_neg kept]
      exact sound.tables.written x there status
  · split at status
    · cases terminal with
      | true | false => cases status
    · exact sound.tables.cleaned x there status
  rw [moved_alone sound.claims mem runs d there key] at works
  cases works

theorem keeps_sound (mem : c ∈ w.cleaners) (works : c.pc.working) (own : c.pc.mine = some mine)
    (next_ : pc.mine = some mine) (gone : ∀ m, pc = .complete m → w.bucket m.attachment = none) : Sound (w.moves c pc) := by
  refine ⟨moved_tables sound.tables,moved_claims pc sound.claims mem (working_runs works) (fun _ => ?_) gone⟩
  rw [next_,←own]
  exact sound.claims.held c mem works

theorem stops_sound (mem : c ∈ w.cleaners) (runs : c.pc ≠ .ended) (idle : pc.working = false) : Sound (w.moves c pc) := by
  refine ⟨moved_tables sound.tables,moved_claims pc sound.claims mem runs (fun works => ?_) fun mine is => ?_⟩
  · rw [idle] at works
    cases works
  rw [is] at idle
  cases idle

theorem row_sound (mem : c ∈ w.cleaners) (at_ : c.pc = .row) (is : w.clean c = some v) : Sound v := by
  have runs : c.pc ≠ .ended := by
    rw [at_]
    exact nofun
  obtain ⟨r,works⟩ := sound.claims.held c mem (by rw [at_]; rfl)
  unfold World.clean at is
  rw [at_] at is
  cases is
  cases found : find Intent.key w.intents c.key with
  | none => exact stops_sound sound mem runs rfl
  | some =>
    cases works_found sound works found
    refine ⟨moved_tables sound.tables,moved_claims _ sound.claims mem runs (fun _ => ⟨r,works.1,works.2.1,works.2.2.1,works.2.2.2.1,fun m own => ?_⟩)
      fun m other => by cases other⟩
    cases own
    rfl

theorem head_sound (mem : c ∈ w.cleaners) (at_ : c.pc = .head mine) (is : w.clean c = some v) : Sound v := by
  have works : c.pc.working := by
    rw [at_]
    rfl
  have own : c.pc.mine = some mine := by
    rw [at_]
    rfl
  unfold World.clean at is
  rw [at_] at is
  cases is
  cases found : w.bucket mine.attachment with
  | none =>
    refine keeps_sound sound mem works own rfl fun m same => ?_
    cases same
    exact found
  | some =>
    dsimp only
    split
    · exact keeps_sound sound mem works own rfl fun m other => by cases other
    exact stops_sound sound mem (working_runs works) rfl

theorem check_sound (mem : c ∈ w.cleaners) (at_ : c.pc = .check mine) (is : w.clean c = some v) : Sound v := by
  have works : c.pc.working := by
    rw [at_]
    rfl
  have own : c.pc.mine = some mine := by
    rw [at_]
    rfl
  unfold World.clean at is
  rw [at_] at is
  cases is
  split
  · exact stops_sound sound mem (working_runs works) rfl
  rename_i absent
  refine keeps_sound sound mem works own rfl fun m same => ?_
  cases same
  rw [Bool.not_eq_true,Option.isSome_eq_false_iff,Option.isNone_iff_eq_none] at absent
  exact absent

theorem clean_sound (mem : c ∈ w.cleaners) (is : w.clean c = some v) : Sound v := by
  cases at_ : c.pc with
  | row => exact row_sound sound mem at_ is
  | head => exact head_sound sound mem at_ is
  | check => exact check_sound sound mem at_ is
  | referenced =>
    have works : c.pc.working := by
      rw [at_]
      rfl
    unfold World.clean at is
    rw [at_] at is
    cases is
    split
    · exact stops_sound sound mem (working_runs works) rfl
    exact keeps_sound sound mem works (by rw [at_]; rfl) rfl fun m other => by cases other
  | delete mine =>
    have works : c.pc.working := by
      rw [at_]
      rfl
    have own : c.pc.mine = some mine := by
      rw [at_]
      rfl
    obtain ⟨r,held⟩ := sound.claims.held c mem works
    rw [own] at held
    unfold World.clean at is
    rw [at_] at is
    cases is
    exact keeps_sound (delete_sound sound held) mem works own rfl fun m other => by cases other
  | complete =>
    unfold World.clean at is
    rw [at_] at is
    cases is
    exact complete_sound sound mem at_
  | fail =>
    unfold World.clean at is
    rw [at_] at is
    cases is
    exact giveBack_sound sound mem (by rw [at_]; exact nofun)
  | ended =>
    unfold World.clean at is
    rw [at_] at is
    cases is

theorem failed_sound (mem : c ∈ w.cleaners) (is : c.pc.failed = some pc) : Sound (w.moves c pc) := by
  refine stops_sound sound mem (fun ended => ?_) ?_
  · rw [ended] at is
    cases is
  cases at_ : c.pc with
  | ended =>
    rw [at_] at is
    cases is
  | _ =>
    rw [at_] at is
    cases is
    rfl

theorem claim_sound (fresh : ∀ c ∈ w.cleaners, c.name ≠ name)
    (found : find Intent.key w.intents k = some r) (pending : r.status = .cleanupPending) (alone : ∀ c ∈ w.cleaners, c.key = k → c.pc = .ended) :
    Sound { w.claim k with cleaners := w.cleaners++[⟨name,k,.row⟩] } := by
  have same : Keeps fun r => { r with claimed := true, attempts := r.attempts + 1 } := fun _ => ⟨rfl,rfl,rfl⟩
  obtain ⟨mem,key⟩ := find_some found
  have tables := amended_tables sound.tables k same (fun _ _ _ status => status) (fun x there _ => sound.tables.written x there)
    fun x there _ => sound.tables.cleaned x there
  have claims := amended_claims sound.claims k same fun c _ _ _ x _ _ status _ => ⟨status,rfl⟩
  refine ⟨tables_of tables rfl rfl rfl rfl rfl,⟨claims.named.add fun c there => fresh c there,fun c there works => ?_,fun c first d second => ?_,
    fun c there mine is => ?_⟩⟩
  · rcases mem_snoc.mp there with old | rfl
    · exact claims.held c old works
    · exact ⟨_,mem_amend.mpr (.inr ⟨r,mem,key,rfl⟩),key,pending,rfl,fun m none => by cases none⟩
  · rcases mem_snoc.mp first with old | rfl
    · rcases mem_snoc.mp second with other | rfl
      · exact claims.alone c old d other
      · exact fun runs _ same => absurd (alone c old same) runs
    · rcases mem_snoc.mp second with other | rfl
      · exact fun _ runs same => absurd (alone d other same.symm) runs
      · exact fun _ _ _ => rfl
  rcases mem_snoc.mp there with old | rfl
  · exact claims.gone c old mine is
  · cases is
end
end

variable {w : World} {actions : List Action}

theorem next_sound (sound : Sound w) (is : next w action = some v) (fair : spared w action) : Sound v := by
  unfold next at is
  unfold spared at fair
  cases action with
  | upload =>
    dsimp only at is
    split at is
    · cases is
    cases is
    exact ⟨tables_of sound.tables rfl rfl rfl rfl rfl,⟨sound.claims.named,sound.claims.held,sound.claims.alone,sound.claims.gone⟩⟩
  | call =>
    obtain ⟨u,found,moved⟩ := Option.bind_eq_some_iff.mp is
    dsimp only at fair
    rw [found] at fair
    exact call_sound sound moved fair
  | callFails =>
    obtain ⟨u,_,failed⟩ := Option.bind_eq_some_iff.mp is
    obtain ⟨pc,_,rfl⟩ := Option.map_eq_some_iff.mp failed
    exact goes_sound sound u pc
  | claim name k stale =>
    dsimp only at is fair
    split at is
    · cases is
    rename_i absent
    split at is
    · rename_i r found
      split at is
      · rename_i may
        cases is
        rw [Bool.not_eq_true',any_eq_false] at fair
        refine claim_sound sound (fun c mem same => absent (any_eq_true.mpr ⟨c,mem,decide_eq_true same⟩)) found may.1 fun c mem key => ?_
        have idle := fair c mem
        rw [key,decide_eq_true rfl,Bool.true_and,decide_eq_true_eq,not_not] at idle
        exact idle
      cases is
    cases is
  | clean =>
    obtain ⟨c,found,moved⟩ := Option.bind_eq_some_iff.mp is
    exact clean_sound sound (find_some found).1 moved
  | cleanFails =>
    obtain ⟨c,found,failed⟩ := Option.bind_eq_some_iff.mp is
    obtain ⟨_,stopped,rfl⟩ := Option.map_eq_some_iff.mp failed
    exact failed_sound sound (find_some found).1 stopped
  | abandon old =>
    cases is
    exact abandon_sound sound old
  | prune old =>
    cases is
    exact prune_sound sound old

theorem initial_sound : Sound initial := by
  refine ⟨⟨nodup_nil,nodup_nil,?_,?_,?_,?_,?_,rfl,nodup_nil⟩,⟨nodup_nil,?_,?_,?_⟩⟩
  all_goals exact fun _ mem => (not_mem_nil mem).elim

theorem sound_custody (sound : Sound w) : Custody w := by
  refine ⟨sound.tables.kept,?_,sound.tables.cleaned⟩
  rw [sound.tables.receipts]
  exact sound.tables.single

theorem bytes_kept (run : Runs (Guarded (fun s e t => next s e = some t) fun s e => spared s e = true) initial actions w) : Custody w :=
  sound_custody (run.preserves Sound (fun _ _ _ sound step => next_sound sound step.1 step.2) initial_sound)

def photo (operation : String) : Request := ⟨⟨"staff",operation⟩,"source","project","photo",⟨3,"digest"⟩⟩

def cleaned : List Action := [.upload 0 (photo "first"),.call 0 "",.call 0 "",.call 0 "",.call 0 "",.call 0 "etag",.callFails 0,.call 0 "",
  .claim 0 ⟨"staff","first"⟩ false,.clean 0,.clean 0,.clean 0,.clean 0,.clean 0,.clean 0,
  .upload 1 (photo "second"),.call 1 "",.call 1 "",.call 1 "",.call 1 "",.call 1 "etag",.call 1 "",.call 1 ""]

theorem bytes_kept_example : ∃ w, Custody w ∧ w.attachments = [⟨1,⟨"staff","second"⟩,⟨3,"digest"⟩,"etag"⟩] ∧
    w.intents.map Intent.status = [.cleanupComplete,.completed] := by
  refine ⟨_,@bytes_kept _ cleaned (Runs.of_checked rfl),rfl,rfl⟩

-- Three uploads under one key and a clean-up: a failed one takes the claim back, and the clean-up deletes what the
-- third committed.
def lost : List Action := [.upload 0 (photo "first"),.call 0 "",.call 0 "",.call 0 "",.upload 1 (photo "first"),.call 1 "",.call 1 "",.call 1 "",
  .upload 2 (photo "first"),.call 2 "",.call 2 "",.call 2 "",.call 0 "",.call 0 "etag",.callFails 1,.call 1 "",
  .claim 0 ⟨"staff","first"⟩ false,.clean 0,.clean 0,.clean 0,.call 0 "",.call 0 "",.call 2 "",.call 2 "",.call 2 "",.clean 0]

theorem bytes_lost : ¬∀ (actions : List Action) (w : World), Runs (fun s e t => next s e = some t) initial actions w → Custody w := by
  intro claim
  obtain ⟨w,run,committed,empty⟩ : ∃ w, Runs (fun s e t => next s e = some t) initial lost w ∧
      w.attachments = [⟨0,⟨"staff","first"⟩,⟨3,"digest"⟩,"etag"⟩] ∧ w.bucket 0 = none := ⟨_,Runs.of_follow rfl,rfl,rfl⟩
  obtain ⟨o,stored,_⟩ := (claim lost w run).kept ⟨0,⟨"staff","first"⟩,⟨3,"digest"⟩,"etag"⟩ (by rw [committed]; exact mem_singleton.mpr rfl)
  cases empty.symm.trans stored
end LedgeTopOps.MemoryAttachments
