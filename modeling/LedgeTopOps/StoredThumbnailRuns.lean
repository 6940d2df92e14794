import LedgeTopOps.StoredThumbnails
import LedgeTopOps.FlowLists

namespace LedgeTopOps.StoredThumbnails
open FlowLists Bool
open List hiding after
open StepRuns
open RendererAttempts (defaultLease)

def Pc.window : Pc → Bool
  | .drainHead | .drainRevived | .regenerate => true
  | _ => false

def Pc.late : Pc → Bool
  | .drainRevived | .regenerate => true
  | _ => false

-- The attempt of a call that has been checked or claimed, and the bytes it has seen stored
-- and may still record.
def Pc.attempt : Pc → Option Nat
  | .completeHead attempt _ | .completeGet attempt _ | .completeWrite attempt _ | .jobWork attempt | .jobExisting attempt _ | .jobAdopt attempt _ _
  | .jobAdoptWrite attempt _ _ | .jobPut attempt _ | .jobWinner attempt | .jobFinal attempt _ | .jobComplete attempt _ => some attempt
  | _ => none

def Pc.seen : Pc → Option Nat
  | .completeWrite _ etag | .jobAdoptWrite _ etag _ | .jobFinal _ etag | .jobComplete _ etag => some etag
  | _ => none

def named (s : Store) (job : Job) : Prop := ∃ object, s.object = some object ∧ job.thumbnailEtag = some object.etag ∧ object.source = s.version

-- A ready row names stored bytes of its source version, unless a drain is between its
-- delete and its check of the row.
def Named (w : World) : Prop := ∀ job, w.store.job = some job → job.status = .ready → (∃ pc ∈ w.flows, pc.window = true) ∨ named w.store job

-- Bytes may be put while a drain will come to the row; else they are those a ready row records and every current
-- attempt has seen.
def World.agrees (w : World) (etag : Nat) : Bool :=
  w.flows.any Pc.late ||
    (w.store.job.all (fun job => job.status ≠ .ready || job.thumbnailEtag = some etag) &&
      w.flows.all fun pc => !(pc.attempt.any fun attempt => w.store.job.any (·.running attempt)) || pc.seen.all (· = etag))

def Pc.spared (w : World) : Pc → Bool
  | .uploadPut etag => w.agrees etag
  | .jobPut _ etag => w.store.object.isSome || w.agrees etag
  | .claimLease read => w.store.job.all fun job => job.status ≠ .pending || job.attempt = read
  | _ => true

def spared (w : World) : Action → Bool
  | .reply index _ => (w.flows[index]?).all (Pc.spared w)
  | _ => true

def Good (object : Option Thumbnail) (flows : List Pc) (etag : Nat) : Prop :=
  (∃ found, object = some found ∧ found.etag = etag) ∨ (object = none ∧ .drainHead ∈ flows) ∨ ∃ pc ∈ flows, pc.late = true

structure Sound (w : World) : Prop where
  source : ∀ object, w.store.object = some object → object.source = w.store.version
  bound : ∀ pc ∈ w.flows, ∀ attempt, pc.attempt = some attempt → ∃ job, w.store.job = some job ∧ attempt ≤ job.attempt
  current : ∀ pc ∈ w.flows, ∀ attempt etag, pc.attempt = some attempt → pc.seen = some etag → ∀ job, w.store.job = some job → job.running attempt = true →
    Good w.store.object w.flows etag
  ready : ∀ job, w.store.job = some job → job.status = .ready → ∃ etag, job.thumbnailEtag = some etag ∧ Good w.store.object w.flows etag

theorem Sound.named (sound : Sound w) : Named w := by
  intro job is status
  obtain ⟨etag,records,⟨found,stored,same⟩ | ⟨_,waits⟩ | ⟨pc,mem,late⟩⟩ := sound.ready job is status
  · exact .inr ⟨found,stored,by rw [records,same],sound.source found stored⟩
  · exact .inl ⟨_,waits,rfl⟩
  refine .inl ⟨pc,mem,?_⟩
  cases pc <;> first | rfl | cases late

structure Milder (before after : Option Job) : Prop where
  kept : ∀ job, before = some job → ∃ job', after = some job' ∧ job.attempt ≤ job'.attempt
  runs : ∀ job', after = some job' → ∀ attempt, job'.running attempt = true →
    (∃ job, before = some job ∧ job.running attempt = true) ∨ ∀ job, before = some job → job.attempt < attempt
  ready : ∀ job', after = some job' → job'.status = .ready → before = some job'

theorem Milder.refl (job : Option Job) : Milder job job :=
  ⟨fun row is => ⟨row,is,Nat.le_refl _⟩,fun row is _ runs => .inl ⟨row,is,runs⟩,fun _ is _ => is⟩

theorem running_iff : Job.running job attempt ↔ job.status = .processing ∧ job.attempt = attempt := by
  simp [Job.running]

theorem update_milder {s : Store} (rises : ∀ job, s.job = some job → condition job → job.attempt ≤ (change job).attempt)
    (runs : ∀ job, s.job = some job → condition job → (change job).status = .processing → job.attempt < (change job).attempt)
    (still : ∀ job, condition job → (change job).status ≠ .ready) : Milder s.job (s.update condition change).job := by
  unfold Store.update
  cases before : s.job with
  | none => exact .refl none
  | some job =>
    by_cases met : condition job
    · have after : (some job).map (fun job => if condition job then change job else job) = some (change job) := by simp [met]
      refine ⟨fun row is => ?_,fun row is _ running => .inr fun other same => ?_,fun row is status => ?_⟩
      · cases is
        exact ⟨change job,after,rises job before met⟩
      · cases same
        cases after.symm.trans is
        obtain ⟨processing,number⟩ := running_iff.mp running
        rw [←number]
        exact runs job before met processing
      cases after.symm.trans is
      exact absurd status (still job met)
    have after : (some job).map (fun job => if condition job then change job else job) = some job := by simp [met]
    rw [after]
    exact .refl _

inductive Effect (s t : Store) (flows : List Pc) (pc after : Pc) : Prop where
  | quiet (object : t.object = s.object) (row : Milder s.job t.job) (window : pc.window = false)
      (attempt : after.attempt = none ∨ after.attempt = pc.attempt ∨ ∃ number job, after.attempt = some number ∧ t.job = some job ∧ number ≤ job.attempt)
      (seen : after.seen = none ∨ (after.seen = pc.seen ∧ after.attempt = pc.attempt))
  | verified (same : t = s) (window : pc.window = false) (attempt : after.attempt = pc.attempt) (found : Thumbnail)
      (stored : s.object = some found) (seen : after.seen = some found.etag)
  | settled (number etag : Nat) (attempt : pc.attempt = some number) (seen : pc.seen = some etag) (object : t.object = s.object)
      (row : ∀ job', t.job = some job' → s.job = some job' ∨ ∃ job, s.job = some job ∧ job.running number = true ∧ job' = ready etag job)
      (rows : ∀ job, s.job = some job → ∃ job', t.job = some job' ∧ job'.attempt = job.attempt)
      (window : pc.window = false) (still : after.attempt = none)
  | put (etag : Nat) (adoptable : Bool) (object : t.object = some ⟨etag,s.version,adoptable⟩) (row : t.job = s.job) (window : pc.window = false)
      (attempt : after.attempt = none ∨ after.attempt = pc.attempt) (seen : after.seen = none ∨ after.seen = some etag)
      (agrees : World.agrees ⟨s,flows⟩ etag = true)
  | deleted (object : t.object = none) (row : t.job = s.job) (goes : after = .drainHead) (window : pc.window = false)
  | occupied (same : t = s) (head : pc = .drainHead) (taken : s.object ≠ none) (goes : after = .halted)
  | checked (same : t = s) (goes : after = .drainRevived)
  | revived (same : t = s) (goes : after = .regenerate)
  | closed (object : t.object = s.object) (row : Milder s.job t.job) (goes : after = .halted)
      (idle : ∀ job', t.job = some job' → job'.status = .pending ∨ job'.status = .failed)

theorem done_called (ran : done u goes reply = some (t,after)) : t = u ∧ after = goes := by
  cases reply <;> cases ran
  exact ⟨rfl,rfl⟩

theorem asked_called (ran : asked s goes reply = some (t,after)) : t = s ∧ ∃ yes, after = goes yes := by
  cases reply <;> cases ran
  exact ⟨rfl,_,rfl⟩

theorem quiet_end (object : t.object = s.object) (row : Milder s.job t.job) (window : pc.window = false) (attempt : after.attempt = none)
    (seen : after.seen = none) : Effect s t flows pc after := .quiet object row window (.inl attempt) (.inl seen)

theorem silent (window : pc.window = false) (attempt : after.attempt = none) (seen : after.seen = none) : Effect s s flows pc after :=
  quiet_end rfl (.refl _) window attempt seen

theorem further (window : pc.window = false) (attempt : after.attempt = pc.attempt) (seen : after.seen = none) : Effect s s flows pc after :=
  .quiet rfl (.refl _) window (.inr (.inl attempt)) (.inl seen)

theorem released (attempt : ∀ job, job.attempt ≤ (change job).attempt)
    (status : ∀ job, (change job).status = .pending ∨ (change job).status = .failed) : Milder s.job (Store.update s condition change).job := by
  refine update_milder (fun job _ _ => attempt job) (fun job _ _ processing => ?_) fun job _ ends => ?_
  · obtain waits | fails := status job
    · cases waits.symm.trans processing
    · cases fails.symm.trans processing
  obtain waits | fails := status job
  · cases waits.symm.trans ends
  cases fails.symm.trans ends

theorem matching_some {s : Store} (met : s.matching condition) : ∃ job, s.job = some job ∧ condition job := by
  unfold Store.matching at met
  cases is : s.job with
  | none => rw [is] at met; cases met
  | some job => rw [is] at met; exact ⟨job,rfl,met⟩

theorem settle (only : ∀ job, condition job → job.running number)
    (attempt : pc.attempt = some number) (seen : pc.seen = some etag) (window : pc.window = false) (still : after.attempt = none) :
    Effect s (s.update condition (ready etag)) flows pc after := by
  refine .settled number etag attempt seen rfl (fun job' is => ?_) (fun job is => ?_) window still
  · obtain ⟨job,before,rfl⟩ := Option.map_eq_some_iff.mp is
    split
    · rename_i met
      exact .inr ⟨job,before,only job met,rfl⟩
    exact .inl before
  refine ⟨_,Option.map_eq_some_iff.mpr ⟨job,is,rfl⟩,?_⟩
  split
  · rfl
  rfl

theorem current_running : Job.current job attempt now → job.running attempt := fun is => (and_eq_true_iff.mp is).1

theorem any_found {object : Option Thumbnail} (is : object.any (·.etag = etag)) : ∃ found, object = some found ∧ found.etag = etag := by
  cases object with
  | none => cases is
  | some found => exact ⟨found,rfl,of_decide_eq_true is⟩

theorem call_effect (spare : pc.spared ⟨s,flows⟩) (ran : pc.call s reply = some (t,after)) : Effect s t flows pc after := by
  cases pc with
  | halted => cases ran
  | claimRead | drainRead | orphanList =>
    obtain ⟨rfl,yes,rfl⟩ := asked_called ran
    refine silent rfl ?_ ?_ <;> (split; split <;> rfl; rfl)
  | claimLease read =>
    obtain ⟨rfl,rfl⟩ := done_called ran
    have fresh : ∀ job, s.job = some job → decide (job.status = .pending) → job.attempt = read := fun job is pending => by
      have known : (decide (job.status ≠ .pending) || decide (job.attempt = read)) := by
        have := spare
        simpa [Pc.spared,is] using this
      simpa [of_decide_eq_true pending] using known
    refine quiet_end rfl (update_milder (fun job is pending => ?_) (fun job is pending _ => ?_) fun _ _ => nofun) rfl rfl rfl
    · rw [fresh job is pending]; exact Nat.le_succ _
    rw [fresh job is pending]; exact Nat.lt_succ_self _
  | uploadPut etag =>
    obtain ⟨rfl,rfl⟩ := done_called ran
    exact .put etag false rfl rfl rfl (.inl rfl) (.inl rfl) spare
  | completeRead attempt etag =>
    obtain ⟨rfl,rfl⟩ := done_called ran
    split
    · rename_i met
      obtain ⟨job,is,current⟩ := matching_some met
      have number := (running_iff.mp (current_running current)).2
      exact .quiet rfl (.refl _) rfl (.inr (.inr ⟨attempt,job,rfl,is,Nat.le_of_eq number.symm⟩)) (.inl rfl)
    exact silent rfl rfl rfl
  | completeHead | jobWinner =>
    obtain ⟨rfl,rfl⟩ := done_called ran
    split
    · exact further rfl rfl rfl
    exact silent rfl rfl rfl
  | completeGet attempt etag =>
    obtain ⟨rfl,yes,rfl⟩ := asked_called ran
    split
    · rename_i valid
      obtain ⟨found,stored,rfl⟩ := any_found (and_eq_true_iff.mp valid).2
      exact .verified rfl rfl rfl found stored rfl
    exact silent rfl rfl rfl
  | completeWrite =>
    obtain ⟨rfl,rfl⟩ := done_called ran
    exact settle (fun _ => current_running) rfl rfl rfl rfl
  | failWrite =>
    obtain ⟨rfl,rfl⟩ := done_called ran
    refine quiet_end rfl (released (fun _ => ?_) fun _ => ?_) rfl rfl rfl
    · split <;> exact Nat.le_refl _
    split
    · exact .inr rfl
    exact .inl rfl
  | jobRead =>
    obtain ⟨rfl,rfl⟩ := done_called ran
    refine silent rfl ?_ ?_ <;> (split; split <;> rfl; rfl)
  | jobClaim =>
    obtain ⟨rfl,rfl⟩ := done_called ran
    have row : Milder s.job (s.update (·.claimable s.now) fun job =>
        { job with status := .processing, attempt := job.attempt + 1, lease := some (s.now + defaultLease) }).job :=
      update_milder (fun _ _ _ => Nat.le_succ _) (fun _ _ _ _ => Nat.lt_succ_self _) fun _ _ => nofun
    split
    · rename_i job claims
      obtain ⟨is,claimable⟩ := Option.filter_eq_some_iff.mp claims
      refine .quiet rfl row rfl (.inr (.inr ⟨_,_,rfl,Option.map_eq_some_iff.mpr ⟨job,is,rfl⟩,?_⟩)) (.inl rfl)
      exact Nat.le_of_eq (by rw [if_pos claimable])
    exact quiet_end rfl row rfl rfl rfl
  | jobWork =>
    cases reply with
    | worked result =>
      cases result <;> cases ran
      · exact silent rfl rfl rfl
      · exact silent rfl rfl rfl
      · exact further rfl rfl rfl
    | ok | flag => cases ran
  | jobReturn | expiredClaim =>
    obtain ⟨rfl,rfl⟩ := done_called ran
    exact quiet_end rfl (released (fun _ => Nat.le_refl _) fun _ => .inl rfl) rfl rfl rfl
  | jobExisting =>
    obtain ⟨rfl,rfl⟩ := done_called ran
    split <;> exact further rfl rfl rfl
  | jobAdopt attempt found occupied =>
    obtain ⟨rfl,yes,rfl⟩ := asked_called ran
    split
    · rename_i valid
      obtain ⟨found',stored,same⟩ := any_found (and_eq_true_iff.mp valid).2
      exact .verified rfl rfl rfl found' stored (by rw [same]; rfl)
    refine silent rfl ?_ ?_ <;> split <;> rfl
  | jobAdoptWrite =>
    obtain ⟨rfl,rfl⟩ := done_called ran
    refine settle (fun _ => id) rfl rfl rfl ?_
    split
    · rfl
    split <;> rfl
  | jobPut _ etag =>
    obtain ⟨rfl,rfl⟩ := done_called ran
    cases stored : s.object with
    | some => exact .quiet (by simp [stored]) (.refl _) rfl (.inr (.inl rfl)) (.inl rfl)
    | none =>
      have agrees : World.agrees ⟨s,flows⟩ etag := by simpa [Pc.spared,stored] using spare
      exact .put etag true (by simp) rfl rfl (.inr rfl) (.inr rfl) agrees
  | jobFinal =>
    obtain ⟨rfl,rfl⟩ := done_called ran
    exact .quiet rfl (.refl _) rfl (.inr (.inl rfl)) (.inr ⟨rfl,rfl⟩)
  | jobComplete =>
    obtain ⟨rfl,rfl⟩ := done_called ran
    refine settle (fun _ => id) rfl rfl rfl ?_
    split <;> rfl
  | jobFail _ terminal =>
    obtain ⟨rfl,rfl⟩ := done_called ran
    refine quiet_end rfl (released (fun _ => Nat.le_refl _) fun _ => ?_) rfl ?_ ?_
    · cases terminal
      · exact .inl rfl
      · exact .inr rfl
    · split <;> rfl
    split <;> rfl
  | schedule =>
    obtain ⟨rfl,rfl⟩ := done_called ran
    exact quiet_end rfl (.refl _) rfl rfl rfl
  | drainReferenced =>
    obtain ⟨rfl,rfl⟩ := done_called ran
    refine silent rfl ?_ ?_ <;> (split; rfl; split <;> rfl)
  | drainDelete =>
    obtain ⟨rfl,rfl⟩ := done_called ran
    exact .deleted rfl rfl rfl rfl
  | drainHead =>
    obtain ⟨same,goes⟩ := done_called ran
    cases stored : s.object with
    | some => exact .occupied same rfl (by rw [stored]; nofun) (by rw [goes,stored]; rfl)
    | none => exact .checked same (by rw [goes,stored]; rfl)
  | drainRevived =>
    obtain ⟨rfl,rfl⟩ := done_called ran
    split
    · exact .revived rfl rfl
    rename_i gone
    refine .closed rfl (.refl _) rfl fun job' is => .inr ?_
    simpa [Store.matching,is] using gone
  | regenerate =>
    obtain ⟨rfl,rfl⟩ := done_called ran
    refine .closed rfl (released (fun _ => Nat.le_refl _) fun _ => .inl rfl) rfl fun job' is => ?_
    obtain ⟨job,_,rfl⟩ := Option.map_eq_some_iff.mp is
    split
    · exact .inl rfl
    rename_i fails
    exact .inr (by simpa using fails)
  | orphanHead =>
    obtain ⟨rfl,yes,rfl⟩ := asked_called ran
    refine silent rfl ?_ ?_ <;> split <;> rfl
  | transientClaim =>
    cases reply with
    | flag =>
      cases ran
      exact quiet_end rfl (released (fun _ => Nat.le_succ _) fun _ => .inl rfl) rfl rfl rfl
    | ok | worked => cases ran
  | _ =>
    obtain ⟨rfl,rfl⟩ := done_called ran
    refine silent rfl ?_ ?_ <;> split <;> rfl

theorem call_version (ran : Pc.call s pc reply = some (t,after)) : t.version = s.version := by
  cases pc with
  | jobWork =>
    cases reply with
    | worked result => cases result <;> cases ran <;> rfl
    | ok | flag => cases ran
  | _ => cases reply <;> cases ran <;> rfl

theorem Good.carry (good : Good object flows etag) (here : flows[index]? = some pc) (window : pc.window = false) :
    Good object (flows.set index after) etag := by
  have stays : ∀ q ∈ flows, q.window → q ∈ flows.set index after := by
    intro q mem inside
    obtain rfl | still := moved_still after here mem
    · cases window.symm.trans inside
    exact still
  obtain stored | ⟨free,waits⟩ | ⟨q,mem,late⟩ := good
  · exact .inl stored
  · exact .inr (.inl ⟨free,stays _ waits rfl⟩)
  exact .inr (.inr ⟨q,stays q mem (by cases q <;> first | rfl | cases late),late⟩)

theorem good_late {flows : List Pc} (here : flows[index]? = some pc) (late : after.late) : Good object (flows.set index after) etag :=
  .inr (.inr ⟨after,moved_here here,late⟩)

theorem mem_moved {flows : List Pc} (mem : q ∈ flows.set index after) : q = after ∨ q ∈ flows := by
  obtain here | there := mem_or_eq_of_mem_set mem
  · exact .inr here
  exact .inl there

theorem Sound.moves (sound : Sound w) (version : t.version = w.store.version)
    (object : ∀ found, t.object = some found → found.source = w.store.version)
    (kept : ∀ job, w.store.job = some job → ∃ job', t.job = some job' ∧ job.attempt ≤ job'.attempt)
    (attempt : ∀ number, after.attempt = some number → ∃ job', t.job = some job' ∧ number ≤ job'.attempt)
    (current : ∀ q, q = after ∨ q ∈ w.flows → ∀ number etag, q.attempt = some number → q.seen = some etag → ∀ job', t.job = some job' →
      job'.running number → Good t.object (w.flows.set index after) etag)
    (ready : ∀ job', t.job = some job' → job'.status = .ready → ∃ etag, job'.thumbnailEtag = some etag ∧ Good t.object (w.flows.set index after) etag) :
    Sound ⟨t,w.flows.set index after⟩ where
  source found stored := (object found stored).trans version.symm
  bound q mem number holds := by
    obtain rfl | old := mem_moved mem
    · exact attempt number holds
    obtain ⟨job,is,least⟩ := sound.bound q old number holds
    obtain ⟨job',is',more⟩ := kept job is
    exact ⟨job',is',Nat.le_trans least more⟩
  current q mem := current q (mem_moved mem)
  ready := ready

theorem Milder.running (row : Milder before after) (runs : ∃ job', after = some job' ∧ job'.running number) (bound : ∃ job, before = some job ∧ number ≤ job.attempt) :
    ∃ job, before = some job ∧ job.running number := by
  obtain ⟨job',is',running⟩ := runs
  obtain ⟨job,is,least⟩ := bound
  obtain old | fresh := row.runs job' is' number running
  · exact old
  exact absurd (fresh job is) (Nat.not_lt.mpr least)

theorem Sound.effect (sound : Sound w) (here : w.flows[index]? = some pc) (version : t.version = w.store.version)
    (effect : Effect w.store t w.flows pc after) : Sound ⟨t,w.flows.set index after⟩ := by
  have mem := List.mem_of_getElem? here
  cases effect with
  | quiet object row window attempt seen =>
    refine sound.moves version (fun found stored => sound.source found (object.symm.trans stored)) row.kept (fun number holds => ?_)
      (fun q which number etag holds sees job' is' running => ?_) fun job' is' status => ?_
    · obtain none' | same | ⟨other,job,other',is,least⟩ := attempt
      · cases none'.symm.trans holds
      · obtain ⟨job,is,least⟩ := sound.bound pc mem number (same.symm.trans holds)
        obtain ⟨job',is',more⟩ := row.kept job is
        exact ⟨job',is',Nat.le_trans least more⟩
      · cases other'.symm.trans holds
        exact ⟨job,is,least⟩
    · have known : ∀ p ∈ w.flows, p.attempt = some number → p.seen = some etag → Good t.object (w.flows.set index after) etag := by
        intro p old holds sees
        obtain ⟨job,is,ran⟩ := row.running ⟨job',is',running⟩ (sound.bound p old number holds)
        rw [object]
        exact (sound.current p old number etag holds sees job is ran).carry here window
      obtain rfl | old := which
      · obtain none' | ⟨same,number'⟩ := seen
        · cases none'.symm.trans sees
        · exact known pc mem (number'.symm.trans holds) (same.symm.trans sees)
      exact known q old holds sees
    obtain ⟨etag,records,good⟩ := sound.ready job' (row.ready job' is' status) status
    rw [object]
    exact ⟨etag,records,good.carry here window⟩
  | verified same window attempt found stored seen =>
    subst same
    refine sound.moves version sound.source (fun job is => ⟨job,is,Nat.le_refl _⟩) (fun number holds => sound.bound pc mem number (attempt.symm.trans holds))
      (fun q which number etag holds sees job' is' running => ?_) fun job' is' status => ?_
    · obtain rfl | old := which
      · cases seen.symm.trans sees
        exact .inl ⟨found,stored,rfl⟩
      · exact (sound.current q old number etag holds sees job' is' running).carry here window
    obtain ⟨etag,records,good⟩ := sound.ready job' is' status
    exact ⟨etag,records,good.carry here window⟩
  | settled number etag attempt seen object row rows window still =>
    refine sound.moves version (fun found stored => sound.source found (object.symm.trans stored))
      (fun job is => by obtain ⟨job',is',same⟩ := rows job is; exact ⟨job',is',Nat.le_of_eq same.symm⟩)
      (fun other holds => by cases still.symm.trans holds)
      (fun q which other etag' holds sees job' is' running => ?_) fun job' is' status => ?_
    · obtain rfl | old := which
      · cases still.symm.trans holds
      · obtain before | ⟨job,_,_,rfl⟩ := row job' is'
        · rw [object]
          exact (sound.current q old other etag' holds sees job' before running).carry here window
        · cases (running_iff.mp running).1
    obtain before | ⟨job,is,ran,rfl⟩ := row job' is'
    · obtain ⟨etag',records,good⟩ := sound.ready job' before status
      rw [object]
      exact ⟨etag',records,good.carry here window⟩
    rw [object]
    exact ⟨etag,rfl,(sound.current pc mem number etag attempt seen job is ran).carry here window⟩
  | put etag _ object row window attempt seen agrees =>
    have good : ∀ wanted, w.flows.any Pc.late ∨ wanted = etag → Good t.object (w.flows.set index after) wanted := by
      intro _ which
      rw [object]
      obtain late | rfl := which
      · obtain ⟨q,there,late⟩ := any_eq_true.mp late
        exact Good.carry (.inr (.inr ⟨q,there,late⟩)) here window
      exact .inl ⟨_,rfl,rfl⟩
    unfold World.agrees at agrees
    rw [or_eq_true,and_eq_true] at agrees
    refine sound.moves version (fun found stored => by cases object.symm.trans stored; rfl) (fun job is => ⟨job,row.trans is,Nat.le_refl _⟩)
      (fun number holds => ?_) (fun q which number wanted holds sees job' is' running => ?_) fun job' is' status => ?_
    · obtain none' | same := attempt
      · cases none'.symm.trans holds
      · rw [row]; exact sound.bound pc mem number (same.symm.trans holds)
    · rw [row] at is'
      obtain rfl | old := which
      · obtain none' | same := seen
        · cases none'.symm.trans sees
        · exact good wanted (.inr (Option.some.inj (sees.symm.trans same)))
      refine good wanted (agrees.imp id fun ⟨_,all⟩ => ?_)
      have agree := all_eq_true.mp all q old
      simpa [holds,sees,is',running] using agree
    rw [row] at is'
    obtain ⟨wanted,records,_⟩ := sound.ready job' is' status
    refine ⟨wanted,records,good wanted (agrees.imp id fun ⟨all,_⟩ => ?_)⟩
    simpa [is',status,records] using all
  | deleted object row goes =>
    have good : ∀ wanted, Good t.object (w.flows.set index after) wanted := by
      intro _
      subst goes
      exact .inr (.inl ⟨object,moved_here here⟩)
    refine sound.moves version (fun found stored => by cases object.symm.trans stored) (fun job is => ⟨job,row.trans is,Nat.le_refl _⟩)
      (fun number holds => by subst goes; cases holds) (fun _ _ _ wanted _ _ _ _ _ => good wanted) fun job' is' status => ?_
    obtain ⟨wanted,records,_⟩ := sound.ready job' (row.symm.trans is') status
    exact ⟨wanted,records,good wanted⟩
  | occupied same head taken goes =>
    subst same head goes
    -- The key is taken, so nobody relied on this drain.
    have good : ∀ wanted, Good w.store.object w.flows wanted → Good w.store.object (w.flows.set index .halted) wanted := by
      intro _ before
      obtain stored | ⟨free,_⟩ | ⟨q,there,late⟩ := before
      · exact .inl stored
      · exact absurd free taken
      obtain rfl | still := moved_still .halted here there
      · cases late
      exact .inr (.inr ⟨q,still,late⟩)
    refine sound.moves version sound.source (fun job is => ⟨job,is,Nat.le_refl _⟩) nofun (fun q which number wanted holds sees job' is' running => ?_)
      fun job' is' status => ?_
    · obtain rfl | old := which
      · cases holds
      · exact good wanted (sound.current q old number wanted holds sees job' is' running)
    obtain ⟨wanted,records,before⟩ := sound.ready job' is' status
    exact ⟨wanted,records,good wanted before⟩
  | checked same goes | revived same goes =>
    subst same goes
    refine sound.moves version sound.source (fun job is => ⟨job,is,Nat.le_refl _⟩) nofun (fun _ _ _ _ _ _ _ _ _ => good_late here rfl) fun job' is' status => ?_
    obtain ⟨wanted,records,_⟩ := sound.ready job' is' status
    exact ⟨wanted,records,good_late here rfl⟩
  | closed object row goes idle =>
    subst goes
    refine sound.moves version (fun found stored => sound.source found (object.symm.trans stored)) row.kept nofun
      (fun q which number wanted holds sees job' is' running => ?_) fun job' is' status => ?_
    · obtain waits | fails := idle job' is'
      · rw [(running_iff.mp running).1] at waits; cases waits
      · rw [(running_iff.mp running).1] at fails; cases fails
    obtain waits | fails := idle job' is'
    · cases status.symm.trans waits
    cases status.symm.trans fails

theorem Sound.begun (sound : Sound w) (pc : Pc) (attempt : pc.attempt = none) : Sound (w.begin pc) := by
  have good : ∀ wanted, Good w.store.object w.flows wanted → Good w.store.object (w.flows++[pc]) wanted := by
    intro _ before
    obtain stored | ⟨free,waits⟩ | ⟨q,there,late⟩ := before
    · exact .inl stored
    · exact .inr (.inl ⟨free,mem_append_left _ waits⟩)
    exact .inr (.inr ⟨q,mem_append_left _ there,late⟩)
  refine ⟨sound.source,fun q mem number holds => ?_,fun q mem number wanted holds sees job is running => ?_,fun job is status => ?_⟩
  · obtain old | new := mem_append.mp mem
    · exact sound.bound q old number holds
    · cases mem_singleton.mp new
      cases attempt.symm.trans holds
  · obtain old | new := mem_append.mp mem
    · exact good wanted (sound.current q old number wanted holds sees job is running)
    · cases mem_singleton.mp new
      cases attempt.symm.trans holds
  obtain ⟨wanted,records,before⟩ := sound.ready job is status
  exact ⟨wanted,records,good wanted before⟩

theorem next_sound (sound : Sound w) (spare : spared w action) (ran : next w action = some v) : Sound v := by
  cases action with
  | tick => cases ran; exact ⟨sound.source,sound.bound,sound.current,sound.ready⟩
  | reply =>
    obtain ⟨pc,here,called⟩ := Option.bind_eq_some_iff.mp ran
    obtain ⟨⟨t,_⟩,called',same⟩ := Option.map_eq_some_iff.mp called
    subst same
    have spare' : pc.spared ⟨w.store,w.flows⟩ := by simpa [spared,here] using spare
    exact sound.effect here (call_version called') (call_effect spare' called')
  | _ =>
    cases ran
    exact sound.begun _ rfl

def Step (w : World) (action : Action) (v : World) : Prop := next w action = some v
def World.registered (now version notBefore : Nat) : World := ⟨⟨now,version,some ⟨.pending,0,none,some notBefore,none⟩,none,none⟩,[]⟩

theorem registered_sound : Sound (World.registered now version notBefore) :=
  ⟨nofun,nofun,nofun,fun job is status => by cases is; cases status⟩

-- In a run of spared steps a ready row names stored bytes of its source version.
theorem thumbnails_named (now version notBefore : Nat)
    (run : Runs (Guarded Step fun w action => spared w action = true) (World.registered now version notBefore) actions w) : Named w :=
  (run.preserves Sound (fun _ _ _ sound step => next_sound sound step.2 step.1) registered_sound).named

def arrive (actions : List Action) : Option World := follow next (World.registered 0 1 0) actions
def oks (flow : Nat) (count : Nat) : List Action := replicate count (.reply flow .ok)

def rendered : List Action :=
  .claim :: .reply 0 (.flag true) :: oks 0 1++.upload 1 5 :: oks 1 2++.complete 1 5 :: oks 2 2++.reply 2 (.flag true) :: oks 2 1

def renderedWorld : World := (arrive rendered).getD (World.registered 0 1 0)

theorem thumbnails_named_example : renderedWorld.store.job.map (·.status) = some .ready ∧ renderedWorld.store.object = some ⟨5,1,false⟩ ∧
    Named renderedWorld := by
  have run : Runs (Guarded Step fun w action => spared w action = true) (World.registered 0 1 0) rendered renderedWorld := Runs.of_checked rfl
  exact ⟨rfl,rfl,thumbnails_named 0 1 0 run⟩

def lateUpload : List Action :=
  .claim :: .reply 0 (.flag true) :: oks 0 1++.upload 1 5 :: oks 1 1++.tick 301 :: .process :: oks 2 2 ++
    .reply 2 (.worked (.rendered 7)) :: oks 2 4++oks 1 1

def secondUpload : List Action :=
  .claim :: .reply 0 (.flag true) :: oks 0 1++.upload 1 5 :: oks 1 2++.complete 1 5 :: oks 2 2++.reply 2 (.flag true) ::
    .upload 1 6 :: oks 3 2++oks 2 1

-- A claim writes the number of an attempt the cleanup has just ended, which then records the object that the cleanup
-- deleted.
def reusedNumber : List Action :=
  .tick 300 :: .process :: oks 0 2++.reply 0 (.worked (.failed true)) :: oks 0 1 ++
    .clean none :: oks 1 1++.reply 1 (.flag true) :: oks 1 1++.recoverTransient :: .reply 2 (.flag true) :: .tick 300 :: .claim :: .reply 3 (.flag true) ::
    .process :: oks 4 2++.reply 4 (.worked (.rendered 7)) :: oks 4 3++oks 1 4++oks 3 1++oks 4 1

def World.misnamed (w : World) : Bool :=
  !w.flows.any Pc.window && w.store.job.any fun job => job.status = .ready && !w.store.object.any fun object =>
    job.thumbnailEtag = some object.etag && object.source = w.store.version

theorem misnamed_not (misnamed : w.misnamed) : ¬Named w := by
  intro named
  obtain ⟨closed,wrong⟩ := and_eq_true_iff.mp misnamed
  cases is : w.store.job with
  | none => rw [is] at wrong; cases wrong
  | some job =>
    rw [is] at wrong
    obtain ⟨status,lost⟩ := and_eq_true_iff.mp wrong
    obtain ⟨pc,mem,window⟩ | ⟨object,stored,records,source⟩ := named job is (of_decide_eq_true status)
    · simp only [not_eq_true',any_eq_false] at closed
      exact closed pc mem window
    simp [stored,records,source] at lost

theorem strays (ran : (arrive actions).any World.misnamed) : ∃ w, Runs Step (World.registered 0 1 0) actions w ∧ ¬Named w := by
  cases reached : arrive actions with
  | none => rw [reached] at ran; cases ran
  | some w =>
    rw [reached] at ran
    exact ⟨w,Runs.of_follow reached,misnamed_not ran⟩

theorem thumbnails_misnamed : (∃ w, Runs Step (World.registered 0 1 0) lateUpload w ∧ ¬Named w) ∧
    (∃ w, Runs Step (World.registered 0 1 0) secondUpload w ∧ ¬Named w) ∧ ∃ w, Runs Step (World.registered 0 1 0) reusedNumber w ∧ ¬Named w :=
  ⟨strays rfl,strays rfl,strays rfl⟩
end LedgeTopOps.StoredThumbnails
