import LedgeTopOps.JsonText
import LedgeTopOps.StepRuns

namespace LedgeTopOps.ImportAdoption
open JsonText StepRuns Bool Option

structure File where
  relativePath : Text
  bytes : List UInt8
deriving DecidableEq

structure Directory where
  files : List File
  plain : Bool
deriving DecidableEq

-- SHA-256 in hexadecimal digits of a file and of a text, and the order of
-- localeCompare.
structure Platform where
  hashFile : List UInt8 → Text
  hashText : Text → Text
  sorted : List File → List File

-- The import that was previewed: its fingerprint, the most files a scan takes,
-- and whether its root is on the file system of the data sets.
structure Import where
  expectedFingerprint : Text
  maxFiles : Nat
  sameDevice : Bool

def line (platform : Platform) (file : File) : Text :=
  file.relativePath++[0]++decimal file.bytes.length++[0]++platform.hashFile file.bytes++[0x0A]

-- scanTree and scanAbsolute: none is an exception.
def scan (setting : Import) (platform : Platform) (directory : Directory) : Option (List File) :=
  if directory.plain && decide (directory.files.length ≤ setting.maxFiles) then some (platform.sorted directory.files) else none

def treeFingerprint (platform : Platform) (files : List File) : Text := platform.hashText (files.flatMap (line platform))

def holds (setting : Import) (platform : Platform) (path : Option Directory) : Bool :=
  path.any fun directory => (scan setting platform directory).any fun files => treeFingerprint platform files == setting.expectedFingerprint

inductive Candidate where
  | destination | incomplete
deriving DecidableEq

inductive Pc where
  -- adoptImport
  | scanSource (externalReference : Bool)
  | checkDestination (before : Option Directory)
  | hashDestination
  | checkIncomplete (before : Option Directory)
  | hashStaged
  | promoteStaged
  | hashSource (before : Directory)
  | clear (before : Directory)
  | move
  | copy (todo : List File)
  | hashIncomplete
  | promote
  | rescan
  | undo
  -- reconcileAdoptionIntent
  | recoverCheck (candidate : Candidate)
  | recoverSource (candidate : Candidate)
  | recoverMove (candidate : Candidate)
  | recoverRemove (candidate : Candidate)
deriving DecidableEq

inductive Outcome where
  | adopted | referenced | recovered | threw
deriving DecidableEq

structure World where
  (source incomplete destination : Option Directory)
  call : Option Pc
  result : Option Outcome
deriving DecidableEq

def World.previewed (tree : Directory) : World := ⟨some tree,none,none,none,none⟩

def World.at (w : World) : Candidate → Option Directory
  | .destination => w.destination
  | .incomplete => w.incomplete

def World.put (w : World) (candidate : Candidate) (path : Option Directory) : World := match candidate with
  | .destination => { w with destination := path }
  | .incomplete => { w with incomplete := path }

def World.next (w : World) (pc : Pc) : World := { w with call := some pc }
def World.finish (w : World) (outcome : Outcome) : World := { w with call := none, result := some outcome }

-- How a file system call ends. A removal or a copy may be caught half done.
inductive Reply where
  | done
  | raised
  | partly (left : Directory)

def World.fail (w : World) (setting : Import) : World := if setting.sameDevice then w.finish .threw else w.next .undo
def sublisted (left : Directory) (path : Option Directory) : Bool := path.any fun directory => left.files.isSublist directory.files

-- rename of a directory: it fails where files stand, and replaces an empty directory.
def free (path : Option Directory) : Bool := path.all fun directory => directory.files == []

def World.recovered (w : World) : Candidate → World
  | .destination => w.next (.recoverCheck .incomplete)
  | .incomplete => w.finish .recovered

-- The next file system call of the call in progress. none is a reply that the
-- call cannot have.
def step (setting : Import) (platform : Platform) (w : World) (pc : Pc) (reply : Reply) : Option World := match pc,reply with
  | .scanSource externalReference,.done => match w.source with
    | none => some (if externalReference then w.finish .threw else w.next (.checkDestination none))
    | some directory => match scan setting platform directory with
      | none => some (w.finish .threw)
      | some files => some (
        if externalReference then
          w.finish (if treeFingerprint platform files = setting.expectedFingerprint then .referenced else .threw)
        else w.next (.checkDestination (some directory)))
  | .checkDestination before,.done => some (if w.destination.isSome then w.next .hashDestination else w.next (.checkIncomplete before))
  | .hashDestination,.done => some (w.finish (if holds setting platform w.destination then .adopted else .threw))
  | .checkIncomplete none,.done => some (if w.incomplete.isSome then w.next .hashStaged else w.finish .threw)
  | .checkIncomplete (some before),.done => some (w.next (.hashSource before))
  | .hashStaged,.done => some (if holds setting platform w.incomplete then w.next .promoteStaged else w.finish .threw)
  | .promoteStaged,.done => if free w.destination then some ({ w with destination := w.incomplete, incomplete := none }.next .rescan) else none
  | .hashSource before,.done => some (
    if holds setting platform (some before) then w.next (.clear before) else w.finish .threw)
  | .clear before,.done => some ({ w with incomplete := none }.next (if setting.sameDevice then .move else .copy ((scan setting platform before).getD [])))
  | .clear before,.partly left => if sublisted left w.incomplete then some ({ w with incomplete := some left }.next (.clear before)) else none
  | .move,.done => if free w.incomplete then some ({ w with incomplete := w.source, source := none }.next .hashIncomplete) else none
  | .copy [],.done => some (w.next .hashIncomplete)
  | .copy (file :: todo),.done =>
    some ({ w with incomplete := some ⟨(w.incomplete.elim [] Directory.files)++[file],true⟩ }.next (.copy todo))
  | .copy (_ :: _),.partly left => if w.incomplete.all fun directory => directory.files.isPrefixOf left.files then
      some ({ w with incomplete := some left }.next .undo) else none
  | .hashIncomplete,.done => some (if holds setting platform w.incomplete then w.next .promote else w.fail setting)
  | .promote,.done => if free w.destination then some ({ w with destination := w.incomplete, incomplete := none }.next .rescan) else none
  | .rescan,.done => some (w.finish .adopted)
  | .undo,.done => some ({ w with incomplete := none }.finish .threw)
  | .undo,.partly left => if sublisted left w.incomplete then some ({ w with incomplete := some left }.next .undo) else none
  | .recoverCheck candidate,.done => some (if (w.at candidate).isSome then w.next (.recoverSource candidate) else w.recovered candidate)
  | .recoverSource candidate,.done => some (w.next (if w.source.isSome then .recoverRemove candidate else .recoverMove candidate))
  | .recoverMove candidate,.done => if setting.sameDevice && free w.source then
      some (({ w with source := w.at candidate }.put candidate none).recovered candidate) else none
  | .recoverRemove candidate,.done => some ((w.put candidate none).recovered candidate)
  | .recoverRemove candidate,.partly left => if sublisted left (w.at candidate) then
      some ((w.put candidate (some left)).next (.recoverRemove candidate)) else none
  | .copy _,.raised | .hashIncomplete,.raised | .promote,.raised | .move,.raised => some (w.fail setting)
  | .rescan,.raised => some (w.finish .threw)
  | _,.raised => some (w.finish .threw)
  | _,.partly _ => none

inductive Action where
  | adoptImport (externalReference : Bool)
  | reconcileAdoptionIntent
  | call (reply : Reply)
  | crash
  -- another program at the source path
  | other (path : Option Directory)

-- Calls follow one another, and another program leaves the tree alone.
def next (setting : Import) (platform : Platform) (w : World) : Action → Option World
  | .adoptImport externalReference => match w.call with
    | none => some ({ w with result := none }.next (.scanSource externalReference))
    | some _ => none
  | .reconcileAdoptionIntent => match w.call with
    | none => some ({ w with result := none }.next (.recoverCheck .destination))
    | some _ => none
  | .call reply => match w.call with
    | none => none
    | some pc => step setting platform w pc reply
  | .crash => some { w with call := none, result := none }
  | .other path => if holds setting platform w.source then none else some { w with source := path }

-- No reconciliation looks at a source path with another directory while the
-- candidate is the tree itself.
def spared (setting : Import) (platform : Platform) (w : World) : Action → Bool
  | .call .done => match w.call with
    | some (.recoverSource candidate) => !holds setting platform (w.at candidate) || w.source.isNone || holds setting platform w.source
    | _ => true
  | _ => true

def Step (setting : Import) (platform : Platform) (w : World) (action : Action) (v : World) : Prop := next setting platform w action = some v

-- A complete tree is somewhere, and a call that adopted left it at the destination.
structure Adopted (setting : Import) (platform : Platform) (w : World) : Prop where
  kept : holds setting platform w.source = true ∨ holds setting platform w.incomplete = true ∨ holds setting platform w.destination = true
  adopted : w.result = some .adopted → holds setting platform w.destination = true

section
variable {setting : Import} {platform : Platform} {w : World} {pc : Pc}

def other : Candidate → Candidate
  | .destination => .incomplete
  | .incomplete => .destination

def Fact (setting : Import) (platform : Platform) (w : World) : Pc → Prop
  | .checkDestination before => ∀ directory, before = some directory → holds setting platform (some directory) = true →
      holds setting platform w.source = true
  | .checkIncomplete before => w.destination = none ∧ ∀ directory, before = some directory →
      holds setting platform (some directory) = true → holds setting platform w.source = true
  | .hashStaged => w.destination = none
  | .promoteStaged => w.destination = none ∧ holds setting platform w.incomplete = true
  | .hashSource before => w.destination = none ∧ (holds setting platform (some before) = true → holds setting platform w.source = true)
  | .clear _ => w.destination = none ∧ holds setting platform w.source = true
  | .move => w.destination = none ∧ w.incomplete = none ∧ setting.sameDevice = true ∧ holds setting platform w.source = true
  | .copy _ => w.destination = none ∧ setting.sameDevice = false
  | .hashIncomplete => w.destination = none
  | .promote => w.destination = none ∧ holds setting platform w.incomplete = true
  | .rescan => holds setting platform w.destination = true
  | .undo => setting.sameDevice = false
  | .recoverMove candidate => holds setting platform (w.at candidate) = true ∨ holds setting platform (w.at (other candidate)) = true
  | .recoverRemove candidate => holds setting platform w.source = true ∨ holds setting platform (w.at (other candidate)) = true
  | .scanSource _ | .hashDestination | .recoverCheck _ | .recoverSource _ => True

structure Based (setting : Import) (platform : Platform) (w : World) : Prop where
  kept : holds setting platform w.source = true ∨ holds setting platform w.incomplete = true ∨ holds setting platform w.destination = true
  own : setting.sameDevice = false → holds setting platform w.source = true

structure Sound (setting : Import) (platform : Platform) (w : World) : Prop extends Based setting platform w where
  adopted : w.result = some .adopted → holds setting platform w.destination = true
  busy : ∀ pc, w.call = some pc → w.result = none ∧ Fact setting platform w pc

section
variable (based : Based setting platform u)
include based

theorem Based.next (pending : u.result = none) (fact : Fact setting platform (u.next pc) pc) :
    Sound setting platform (u.next pc) where
  kept := based.kept
  own := based.own
  adopted same := by
    rw [World.next,pending] at same
    cases same
  busy _ same := by
    cases same
    exact ⟨pending,fact⟩

theorem Based.finish (outcome : Outcome)
    (tree : outcome = .adopted → holds setting platform u.destination) : Sound setting platform (u.finish outcome) where
  kept := based.kept
  own := based.own
  adopted same := tree (by cases same; rfl)
  busy _ same := by cases same

theorem Based.threw : Sound setting platform (u.finish .threw) :=
  based.finish .threw fun same => by cases same

theorem Based.fail (pending : u.result = none) : Sound setting platform (u.fail setting) := by
  unfold World.fail
  split
  · exact based.threw
  rename_i apart
  exact based.next pending (eq_false_iff.mpr apart)

theorem Based.recovered (pending : u.result = none) (candidate : Candidate) : Sound setting platform (u.recovered candidate) := by
  cases candidate with
  | destination => exact based.next pending trivial
  | incomplete => exact based.finish .recovered fun same => by cases same
end

theorem raised_sound (based : Based setting platform w) (pending : w.result = none) (ran : step setting platform w pc .raised = some v) :
    Sound setting platform v := by
  cases pc with
  | copy todo => cases todo <;> cases ran <;> exact based.fail pending
  | checkIncomplete before => cases before <;> cases ran <;> exact based.threw
  | move | hashIncomplete | promote =>
    cases ran
    exact based.fail pending
  | _ =>
    cases ran
    exact based.threw

theorem Fact.spare (fact : Fact setting platform w (.recoverRemove candidate)) (based : Based setting platform w) (path : Option Directory) :
    Based setting platform (w.put candidate path) := by
  cases candidate with
  | destination => exact ⟨fact.imp_right Or.inl,based.own⟩
  | incomplete => exact ⟨fact.imp_right Or.inr,based.own⟩

theorem put_result (candidate : Candidate) (path : Option Directory) : (w.put candidate path).result = w.result := by cases candidate <;> rfl

theorem partly_sound (based : Based setting platform w) (pending : w.result = none) (fact : Fact setting platform w pc)
    (ran : step setting platform w pc (.partly left) = some v) : Sound setting platform v := by
  cases pc with
  | clear =>
    simp only [step,ite_none_right_eq_some,some.injEq] at ran
    obtain ⟨_,rfl⟩ := ran
    exact Based.next ⟨.inl fact.2,fun _ => fact.2⟩ pending fact
  | copy todo =>
    cases todo with
    | nil => cases ran
    | cons =>
      have source := based.own fact.2
      simp only [step,ite_none_right_eq_some,some.injEq] at ran
      obtain ⟨_,rfl⟩ := ran
      exact Based.next ⟨.inl source,fun _ => source⟩ pending fact.2
  | undo =>
    have source := based.own fact
    simp only [step,ite_none_right_eq_some,some.injEq] at ran
    obtain ⟨_,rfl⟩ := ran
    exact Based.next ⟨.inl source,fun _ => source⟩ pending fact
  | recoverRemove candidate =>
    simp only [step,ite_none_right_eq_some,some.injEq] at ran
    obtain ⟨_,rfl⟩ := ran
    refine (fact.spare based (some left)).next ((put_result _ _).trans pending) ?_
    cases candidate <;> exact fact
  | checkIncomplete before => cases before <;> cases ran
  | _ => cases ran

theorem step_sound (sound : Sound setting platform w) (called : w.call = some pc) (guarded : spared setting platform w (.call reply))
    (ran : step setting platform w pc reply = some v) : Sound setting platform v := by
  have based := sound.toBased
  obtain ⟨pending,fact⟩ := sound.busy pc called
  cases reply with
  | raised => exact raised_sound based pending ran
  | partly => exact partly_sound based pending fact ran
  | done =>
  cases pc with
  | scanSource externalReference =>
    simp only [step] at ran
    cases there : w.source with
    | none =>
      simp only [there] at ran
      cases externalReference with
      | true =>
        cases ran
        exact based.threw
      | false =>
        cases ran
        exact based.next pending fun directory same => by cases same
    | some directory =>
      simp only [there] at ran
      cases scanned : scan setting platform directory with
      | none =>
        simp only [scanned] at ran
        cases ran
        exact based.threw
      | some =>
        simp only [scanned,some.injEq] at ran
        subst ran
        cases externalReference with
        | true => exact based.finish _ fun same => by split at same <;> cases same
        | false =>
          refine based.next pending fun before same tree => ?_
          cases same
          exact (congrArg (holds setting platform) there).trans tree
  | checkDestination before =>
    cases ran
    split
    · exact based.next pending trivial
    rename_i absent
    exact based.next pending ⟨not_isSome_iff_eq_none.mp absent,fact⟩
  | hashDestination =>
    cases ran
    refine based.finish _ fun same => ?_
    split at same
    · assumption
    cases same
  | checkIncomplete before =>
    obtain ⟨empty,known⟩ := fact
    cases before with
    | none =>
      cases ran
      split
      · exact based.next pending empty
      exact based.threw
    | some before =>
      cases ran
      exact based.next pending ⟨empty,known before rfl⟩
  | hashStaged =>
    cases ran
    split
    · rename_i tree
      exact based.next pending ⟨fact,tree⟩
    exact based.threw
  | hashSource before =>
    obtain ⟨empty,known⟩ := fact
    cases ran
    split
    · rename_i tree
      exact based.next pending ⟨empty,known tree⟩
    exact based.threw
  | clear before =>
    obtain ⟨empty,source⟩ := fact
    cases ran
    have cleared : Based setting platform { w with incomplete := none } := ⟨.inl source,fun _ => source⟩
    split
    · rename_i same
      exact cleared.next pending ⟨empty,rfl,same,source⟩
    rename_i apart
    exact cleared.next pending ⟨empty,eq_false_iff.mpr apart⟩
  | move =>
    obtain ⟨empty,cleared,same,source⟩ := fact
    simp only [step,cleared,free,all_none,if_true,some.injEq] at ran
    subst ran
    exact Based.next ⟨.inr (.inl source),fun apart => by rw [same] at apart; cases apart⟩ pending empty
  | copy todo =>
    obtain ⟨empty,apart⟩ := fact
    have source := based.own apart
    cases todo with
    | nil =>
      cases ran
      exact based.next pending empty
    | cons =>
      cases ran
      exact Based.next ⟨.inl source,fun _ => source⟩ pending ⟨empty,apart⟩
  | hashIncomplete =>
    cases ran
    split
    · rename_i tree
      exact based.next pending ⟨fact,tree⟩
    exact based.fail pending
  | rescan =>
    cases ran
    exact based.finish .adopted fun _ => fact
  | undo =>
    have source := based.own fact
    cases ran
    exact Based.threw ⟨.inl source,fun _ => source⟩
  | recoverCheck candidate =>
    cases ran
    split
    · exact based.next pending trivial
    exact based.recovered pending candidate
  | recoverSource candidate =>
    cases ran
    have elsewhere : holds setting platform w.source ∨ holds setting platform (w.at candidate) ∨ holds setting platform (w.at (other candidate)) := by
      cases candidate with
      | destination => exact based.kept.imp_right Or.symm
      | incomplete => exact based.kept
    split
    · -- another directory at the source is not taken for the tree
      rename_i there
      simp only [spared,called,or_eq_true,not_eq_true',isNone_iff_eq_none] at guarded
      refine based.next pending ?_
      rcases guarded with (lost | absent) | source
      · exact elsewhere.imp_right fun either => either.resolve_left (by rw [lost]; exact Bool.false_ne_true)
      · rw [absent] at there
        cases there
      exact .inl source
    rename_i absent
    refine based.next pending (elsewhere.resolve_left fun source => absent ?_)
    cases at_ : w.source with
    | none =>
      rw [at_] at source
      cases source
    | some => rfl
  | recoverMove candidate =>
    simp only [step,ite_none_right_eq_some,and_eq_true,some.injEq] at ran
    obtain ⟨⟨same,_⟩,rfl⟩ := ran
    refine Based.recovered ⟨?_,fun apart => by rw [same] at apart; cases apart⟩ (by cases candidate <;> exact pending) candidate
    cases candidate with
    | destination => exact fact.imp_right Or.inl
    | incomplete => exact fact.imp_right Or.inr
  | recoverRemove candidate =>
    cases ran
    exact (fact.spare based none).recovered ((put_result _ _).trans pending) candidate
  | _ =>
    obtain ⟨empty,tree⟩ := fact
    simp only [step,empty,free,all_none,if_true,some.injEq] at ran
    subst ran
    exact Based.next ⟨.inr (.inr tree),based.own⟩ pending tree

theorem Fact.other (lost : holds setting platform w.source = false) (fact : Fact setting platform w pc) (path : Option Directory) :
    Fact setting platform { w with source := path } pc := by
  have nowhere (source : holds setting platform w.source) : False := by
    rw [lost] at source
    cases source
  cases pc with
  | checkDestination => exact fun directory same tree => (nowhere (fact directory same tree)).elim
  | checkIncomplete => exact ⟨fact.1,fun directory same tree => (nowhere (fact.2 directory same tree)).elim⟩
  | hashSource => exact ⟨fact.1,fun tree => (nowhere (fact.2 tree)).elim⟩
  | clear => exact (nowhere fact.2).elim
  | move => exact (nowhere fact.2.2.2).elim
  | recoverMove candidate => cases candidate <;> exact fact
  | recoverRemove candidate =>
    refine .inr ?_
    have elsewhere := fact.resolve_left nowhere
    cases candidate <;> exact elsewhere
  | _ => exact fact

theorem next_sound (sound : Sound setting platform w) (guarded : spared setting platform w action)
    (moved : Step setting platform w action v) : Sound setting platform v := by
  have based := sound.toBased
  unfold Step next at moved
  cases action with
  | call =>
    cases called : w.call with
    | none =>
      rw [called] at moved
      cases moved
    | some =>
      simp only [called] at moved
      exact step_sound sound called guarded moved
  | crash =>
    cases moved
    refine ⟨⟨based.kept,based.own⟩,?_,?_⟩
    · intro same
      cases same
    intro _ same
    cases same
  | other path =>
    simp only [ite_none_left_eq_some,some.injEq,not_eq_true] at moved
    obtain ⟨lost,rfl⟩ := moved
    refine ⟨⟨.inr (based.kept.resolve_left ?_),fun apart => ?_⟩,sound.adopted,?_⟩
    · rw [lost]
      exact Bool.false_ne_true
    · have source := based.own apart
      rw [lost] at source
      cases source
    intro pc called
    obtain ⟨pending,fact⟩ := sound.busy pc called
    exact ⟨pending,fact.other lost path⟩
  | _ =>
    cases idle : w.call with
    | none =>
      simp only [idle,some.injEq] at moved
      subst moved
      exact Based.next ⟨based.kept,based.own⟩ rfl trivial
    | some =>
      rw [idle] at moved
      cases moved
end

-- In every history without such a look the tree is kept.
theorem adoption_keeps_tree (setting : Import) (platform : Platform) (tree : Directory) (actions : List Action) (final : World)
    (previewed : holds setting platform (some tree) = true)
    (path : Runs (Guarded (Step setting platform) fun w action => spared setting platform w action = true) (.previewed tree) actions final) :
    Adopted setting platform final := by
  have start : Sound setting platform (.previewed tree) := by
    refine ⟨⟨.inl previewed,fun _ => previewed⟩,?_,?_⟩
    · intro same
      cases same
    intro _ same
    cases same
  have sound := path.preserves (Sound setting platform) (fun _ _ _ sound taken => next_sound sound taken.2 taken.1) start
  exact ⟨sound.kept,sound.adopted⟩

def plainPlatform : Platform := ⟨fun bytes => bytes.map UInt8.toUInt16,fun text => text,fun files => files⟩
def smallTree : Directory := ⟨[⟨[0x61],[]⟩],true⟩
def smallImport : Import := ⟨treeFingerprint plainPlatform smallTree.files,1000,true⟩
def adopting : List Action := .adoptImport false :: List.replicate 9 (.call .done)

theorem adoption_keeps_tree_example : ∃ final, final.destination = some smallTree ∧ final.result = some .adopted ∧ Adopted smallImport plainPlatform final :=
  ⟨⟨none,none,some smallTree,none,some .adopted⟩,rfl,rfl,
    adoption_keeps_tree smallImport plainPlatform smallTree adopting _ (by decide) (Runs.of_checked (by decide))⟩

-- After the adoption another directory is made at the source, and the
-- reconciliation takes it for the tree.
def mistaken : List Action :=
  adopting++.other (some ⟨[⟨[0x62],[]⟩],true⟩) :: .reconcileAdoptionIntent :: List.replicate 3 (.call .done)

theorem reconciliation_removes_last_copy : ∃ final, holds smallImport plainPlatform (some smallTree) = true ∧
    Runs (Step smallImport plainPlatform) (.previewed smallTree) mistaken final ∧ ¬Adopted smallImport plainPlatform final := by
  refine ⟨⟨some ⟨[⟨[0x62],[]⟩],true⟩,none,none,some (.recoverCheck .incomplete),none⟩,by decide,Runs.of_follow (by decide),?_⟩
  rintro ⟨kept,_⟩
  exact absurd kept (by decide)
end LedgeTopOps.ImportAdoption
