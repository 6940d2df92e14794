import LedgeTopOps.StepRuns

namespace LedgeTopOps.ProviderSubmission
open List hiding count
open StepRuns Bool

-- The files of a dataset that a submission sends: no two of one name, and at
-- least one photo.
structure Submission (File : Type) where
  mapped : List File
  photo : File → Bool
  distinct : mapped.Nodup
  processable : mapped.any photo = true

inductive Phase where
  | new | initializing | initialized | uploading | uploadingAuxiliary | uploaded | committing | committed
deriving DecidableEq

inductive Status where
  | running | completed | another
deriving DecidableEq

structure Task (File : Type) where
  files : List File
  status : Status
deriving DecidableEq

-- initialization_json. Without input files in its snapshot an attempt is a
-- historical one and has none.
structure Initialization where
  generation : Nat
  (acknowledged ambiguous : Bool)
deriving DecidableEq

structure Initialize where
  (missing acknowledged : Bool)
deriving DecidableEq

inductive Pc where
  | status
  | remove
  | reset
  | markAmbiguous
  | begin (freshTaskMissing : Bool)
  | saveInitializing (generation : Option Nat)
  | initializeTask (generation : Option Nat)
  | acknowledge (generation : Nat) (sameUuid : Bool)
  | saveInitialized
  | photos (index : Nat)
  | uploadPhotos (index : Nat)
  | savePhotos (index : Nat)
  | auxiliary (index : Nat)
  | uploadAuxiliary (index : Nat)
  | saveAuxiliary (index : Nat)
  | saveUploaded
  | saveCommitting
  | commit
  | saveCommitted
deriving DecidableEq

-- The row of the attempt, the provider's task and the run in progress; the last
-- two fields are histories.
structure World (File : Type) where
  phase : Phase
  uploadedFileCount : Nat
  initialization : Option Initialization
  task : Option (Task File)
  run : Option Pc
  commits : List (Option (List File))
  initializes : List Initialize
deriving DecidableEq

variable {File : Type}

def Submission.photoFiles (s : Submission File) : List File := s.mapped.filter s.photo
def Submission.auxiliaryFiles (s : Submission File) : List File := s.mapped.filter fun file => !s.photo file
def Submission.files (s : Submission File) : List File := s.photoFiles++s.auxiliaryFiles
def World.start : World File := ⟨.new,0,none,none,none,[],[]⟩
def World.goto (w : World File) (pc : Pc) : World File := { w with run := some pc }
def World.stop (w : World File) : World File := { w with run := none }
def World.save (w : World File) (phase : Phase) (count : Nat) : World File := { w with phase := phase, uploadedFileCount := count }
def World.receive (w : World File) (files : List File) : World File :=
  { w with task := w.task.map fun task => { task with files := task.files++files } }

-- How a call ends: it returns, it fails before or after it takes effect, an
-- upload that fails after some of its files, an initialize with another uuid.
inductive Reply where
  | done
  | failed (effected : Bool)
  | partly (count : Nat)
  | mismatched

def batch (files : List File) (index : Nat) : List File := (files.drop index).take 20

def World.finish (w : World File) : World File := if w.phase = .committed then w.stop else w.goto .saveUploaded

def World.sent (w : World File) (s : Submission File) : World File :=
  if s.auxiliaryFiles ≠ [] ∧ w.uploadedFileCount < s.files.length then
    w.goto (.auxiliary (w.uploadedFileCount - s.photoFiles.length))
  else w.finish

def World.resume (w : World File) (s : Submission File) (task : Task File) : World File := match w.phase with
  | .new | .uploadingAuxiliary => w.goto .remove
  | .initializing => w.goto .markAmbiguous
  | .uploading =>
    if (task.files.filter s.photo).length < w.uploadedFileCount ∨ s.photoFiles.length < (task.files.filter s.photo).length then w.goto .remove
    else (w.save .uploading (task.files.filter s.photo).length).goto (.photos (task.files.filter s.photo).length)
  | .committing =>
    if task.status = .another then w.goto .remove else (w.save .committed s.files.length).goto (.photos s.files.length)
  | .initialized | .uploaded | .committed => w.goto (.photos w.uploadedFileCount)

def World.created (w : World File) : World File :=
  { w with task := some (w.task.getD ⟨[],.another⟩) }

def World.called (w : World File) : World File :=
  { w with initializes := w.initializes++[⟨w.task.isNone,false⟩] }

def World.ambiguous (w : World File) : World File :=
  { w with initialization := w.initialization.map fun record => { record with ambiguous := true } }

def begun (w : World File) (freshTaskMissing : Bool) : Initialization :=
  ⟨(w.initialization.elim 0 Initialization.generation) + 1,false,w.initialization.isSome || !freshTaskMissing || decide (w.phase ≠ .new)⟩

-- acknowledgeAttemptInitialization of the call that was sent last.
def World.acknowledge (w : World File) (generation : Nat) : World File := match w.initialization with
  | none => w.stop
  | some record =>
    if record.generation = generation ∧ record.acknowledged = false then
      { w with
        initialization := some { record with acknowledged := true }
        initializes := w.initializes.dropLast++(w.initializes.getLast?.map fun call => { call with acknowledged := true }).toList
        run := some .saveInitialized }
    else w.stop

def step (s : Submission File) (historical : Bool) (w : World File) (pc : Pc) (reply : Reply) : Option (World File) := match pc,reply with
  | .status,.done => some (match w.task with
    | none => w.goto (if w.phase = .new then .begin true else .reset)
    | some task => w.resume s task)
  | .remove,.done => some ({ w with task := none }.goto .reset)
  | .remove,.failed effected => some (if effected then { w with task := none }.stop else w.stop)
  | .reset,.done => some ((w.save .new 0).goto (.begin false))
  | .markAmbiguous,.done => some (w.ambiguous.goto .saveInitialized)
  | .begin freshTaskMissing,.done => some (
    if historical then w.goto (.saveInitializing none)
    else { w with initialization := some (begun w freshTaskMissing) }.goto (.saveInitializing (some (begun w freshTaskMissing).generation)))
  | .saveInitializing generation,.done => some ((w.save .initializing 0).goto (.initializeTask generation))
  | .initializeTask none,.done | .initializeTask none,.mismatched => some (w.called.created.goto .saveInitialized)
  | .initializeTask (some generation),.done => some (w.called.created.goto (.acknowledge generation true))
  | .initializeTask (some generation),.mismatched => some (w.called.created.goto (.acknowledge generation false))
  | .initializeTask _,.failed effected => some (if effected then w.called.created.stop else w.called.stop)
  | .acknowledge generation sameUuid,.done => some (if sameUuid then w.acknowledge generation else w.ambiguous.goto .saveInitialized)
  | .saveInitialized,.done => some ((w.save .initialized 0).goto (.photos 0))
  | .photos index,.done => some (
    if index < s.photoFiles.length then (w.save .uploading index).goto (.uploadPhotos index) else w.sent s)
  | .uploadPhotos index,.done => some ((w.receive (batch s.photoFiles index)).goto (.savePhotos index))
  | .uploadPhotos index,.partly count => some (w.receive ((batch s.photoFiles index).take count)).stop
  | .savePhotos index,.done => some ((w.save .uploading (index + (batch s.photoFiles index).length)).goto (.photos (index + 20)))
  | .auxiliary index,.done => some (
    if index < s.auxiliaryFiles.length then (w.save .uploadingAuxiliary (s.photoFiles.length + index)).goto (.uploadAuxiliary index)
    else w.finish)
  | .uploadAuxiliary index,.done => some ((w.receive (batch s.auxiliaryFiles index)).goto (.saveAuxiliary index))
  | .uploadAuxiliary index,.partly count => some (w.receive ((batch s.auxiliaryFiles index).take count)).stop
  | .saveAuxiliary index,.done => some (
    (w.save .uploadingAuxiliary (s.photoFiles.length + index + (batch s.auxiliaryFiles index).length)).goto (.auxiliary (index + 20)))
  | .saveUploaded,.done => some ((w.save .uploaded s.files.length).goto .saveCommitting)
  | .saveCommitting,.done => some ((w.save .committing s.files.length).goto .commit)
  | .commit,.done => some ({ w with commits := w.commits++[w.task.map Task.files] }.goto .saveCommitted)
  | .commit,.failed _ => some { w with commits := w.commits++[w.task.map Task.files] }.stop
  | .saveCommitted,.done => some (w.save .committed s.files.length).stop
  | _,_ => none

-- A crash, a lost lease or an error of any other call ends the run.
inductive Event where
  | processSubmit
  | call (reply : Reply)
  | interrupt
  | provider (status : Status)

def next (s : Submission File) (historical : Bool) (w : World File) : Event → Option (World File)
  | .processSubmit => if w.run = none then some (w.goto .status) else none
  | .call reply => w.run.bind fun pc => step s historical w pc reply
  | .interrupt => some w.stop
  | .provider status => some { w with task := w.task.map fun task => { task with status := status } }

def Step (s : Submission File) (historical : Bool) (w : World File) (event : Event) (v : World File) : Prop :=
  next s historical w event = some v

-- getVerifiedAttemptProducerReceipt; `others` are its conditions on the result
-- of the task, the archive and the identifiers.
def verifiedReceipt (s : Submission File) (historical others : Bool) (w : World File) : Bool :=
  !historical && others && (w.initialization.any fun init => init.acknowledged && !init.ambiguous && init.generation == 1) &&
    decide (w.phase = .committed) && w.uploadedFileCount == s.files.length

-- The files are those of the submission, each of them once.
def Exactly (s : Submission File) (sent : Option (List File)) : Prop := ∃ files, sent = some files ∧ files.Nodup ∧ files.Perm s.mapped

section
variable {s : Submission File} {historical : Bool} {w : World File} {pc : Pc}

def Filled (w : World File) (files : List File) : Prop := ∃ task, w.task = some task ∧ task.files = files

-- What the saved phase says of the task, where there is one.
def Held (s : Submission File) (w : World File) : Prop := match w.phase with
  | .new | .uploadingAuxiliary => True
  | .initializing | .initialized => w.uploadedFileCount = 0 ∧ ∀ task, w.task = some task → task.files = []
  | .uploading => ∀ task, w.task = some task → ∃ count, w.uploadedFileCount ≤ count ∧ count ≤ s.photoFiles.length ∧
      task.files = s.photoFiles.take count
  | .uploaded | .committing | .committed => w.uploadedFileCount = s.files.length ∧ ∀ task, w.task = some task → task.files = s.files

def Fact (s : Submission File) (w : World File) : Pc → Prop
  | .status | .remove => True
  | .reset => w.task = none
  | .markAmbiguous | .saveInitialized => Filled w []
  | .begin _ | .saveInitializing _ => w.task = none
  | .initializeTask _ => w.task = none ∧ w.phase = .initializing
  | .acknowledge _ _ => Filled w []
  | .photos index => index < s.photoFiles.length ∧ Filled w (s.photoFiles.take index) ∨
      s.photoFiles.length ≤ w.uploadedFileCount ∧ s.photoFiles.length ≤ index ∧ Filled w (s.files.take w.uploadedFileCount)
  | .uploadPhotos index => index < s.photoFiles.length ∧ w.phase = .uploading ∧ w.uploadedFileCount = index ∧
      Filled w (s.photoFiles.take index)
  | .savePhotos index => index < s.photoFiles.length ∧ Filled w (s.photoFiles.take (index + 20))
  | .auxiliary index => Filled w (s.photoFiles++s.auxiliaryFiles.take index)
  | .uploadAuxiliary index => w.phase = .uploadingAuxiliary ∧ Filled w (s.photoFiles++s.auxiliaryFiles.take index)
  | .saveAuxiliary index => Filled w (s.photoFiles++s.auxiliaryFiles.take (index + 20))
  | .saveUploaded | .saveCommitting | .commit | .saveCommitted => Filled w s.files

-- What the record of the initialize calls says of them.
def Counted (w : World File) : Prop :=
  (w.initialization = none → w.initializes = []) ∧ ∀ record, w.initialization = some record →
    1 ≤ record.generation ∧ (record.generation = 1 → record.acknowledged = true → w.initializes = [⟨true,true⟩])

def Intends (w : World File) (generation : Option Nat) (calls : List Initialize) : Prop :=
  ∃ record, w.initialization = some record ∧ generation = some record.generation ∧ record.acknowledged = false ∧
    (record.generation = 1 → w.initializes = calls)

def Claims (w : World File) : Pc → Prop
  | .saveInitializing generation | .initializeTask generation => Intends w generation []
  | .acknowledge generation _ => Intends w (some generation) [⟨true,false⟩]
  | _ => True

structure Settled (s : Submission File) (historical : Bool) (w : World File) : Prop where
  held : Held s w
  commits : ∀ sent ∈ w.commits, sent = some s.files
  recorded : historical = false → Counted w

structure Sound (s : Submission File) (historical : Bool) (w : World File) : Prop extends Settled s historical w where
  fact : ∀ pc, w.run = some pc → Fact s w pc ∧ (historical = false → Claims w pc)

theorem photos_first (s : Submission File) : 0 < s.photoFiles.length := by
  obtain ⟨_,mem,photo⟩ := any_eq_true.mp s.processable
  exact length_pos_of_mem (mem_filter.mpr ⟨mem,photo⟩)

theorem photos_photos (s : Submission File) (count : Nat) : (s.photoFiles.take count).filter s.photo = s.photoFiles.take count :=
  filter_eq_self.mpr fun _ mem => (mem_filter.mp (mem_of_mem_take mem)).2

theorem take_batch (files : List File) (index : Nat) : files.take index++batch files index = files.take (index + 20) := by
  rw [batch,take_add]

theorem files_exact (s : Submission File) : Exactly s (some s.files) := by
  have same : s.files.Perm s.mapped := filter_append_perm s.photo s.mapped
  exact ⟨s.files,rfl,same.nodup_iff.mpr s.distinct,same⟩

theorem Held.gone (held : Held s w) : Held s { w with task := none } := by
  unfold Held at held ⊢
  cases phase : w.phase <;> simp_all

theorem Filled.receive (filled : Filled w front) (files : List File) : Filled (w.receive files) (front++files) := by
  obtain ⟨_,there,rfl⟩ := filled
  exact ⟨_,by rw [World.receive,there]; rfl,rfl⟩

theorem Filled.only (filled : Filled w files) (there : w.task = some task) : task.files = files := by
  obtain ⟨_,same,rfl⟩ := filled
  cases there.symm.trans same
  rfl

section
variable (settled : Settled s historical w)
include settled

theorem Settled.goto (fact : Fact s (w.goto pc) pc) (claims : historical = false → Claims (w.goto pc) pc) :
    Sound s historical (w.goto pc) where
  held := settled.held
  commits := settled.commits
  recorded := settled.recorded
  fact _ same := by
    cases same
    exact ⟨fact,claims⟩

theorem Settled.stop : Sound s historical w.stop where
  held := settled.held
  commits := settled.commits
  recorded := settled.recorded
  fact _ same := by cases same

theorem Settled.save (held : Held s (w.save phase count)) : Settled s historical (w.save phase count) :=
  ⟨held,settled.commits,settled.recorded⟩

theorem Settled.finish (filled : Filled w s.files) : Sound s historical w.finish := by
  unfold World.finish
  split
  · exact settled.stop
  exact settled.goto filled fun _ => trivial

theorem Settled.sent (enough : s.photoFiles.length ≤ w.uploadedFileCount)
    (filled : Filled w (s.files.take w.uploadedFileCount)) : Sound s historical (w.sent s) := by
  unfold World.sent
  split
  · refine settled.goto ?_ fun _ => trivial
    rw [Submission.files,take_append,take_of_length_le enough] at filled
    exact filled
  rename_i large
  refine settled.finish ?_
  rw [take_of_length_le] at filled
  · exact filled
  · rw [Submission.files,length_append] at large ⊢
    cases none_ : s.auxiliaryFiles with
    | nil => simpa using enough
    | cons => simp [none_] at large; simp; omega
end

theorem photos_whole (there : w.task = some task) (count : w.uploadedFileCount = s.files.length) (files : task.files = s.files) :
    Fact s w (.photos s.files.length) := by
  have enough : s.photoFiles.length ≤ s.files.length := by
    rw [Submission.files,length_append]
    omega
  refine .inr ⟨by rw [count]; exact enough,enough,task,there,?_⟩
  rw [count,take_length]
  exact files

theorem Settled.resume (settled : Settled s historical w) (there : w.task = some task) : Sound s historical (w.resume s task) := by
  have held := settled.held
  unfold World.resume
  unfold Held at held
  cases phase : w.phase with
  | initializing =>
    rw [phase] at held
    exact settled.goto ⟨task,there,held.2 task there⟩ fun _ => trivial
  | initialized =>
    rw [phase] at held
    refine settled.goto (.inl ?_) fun _ => trivial
    rw [held.1]
    exact ⟨photos_first s,task,there,held.2 task there⟩
  | uploading =>
    rw [phase] at held
    obtain ⟨count,least,most,files⟩ := held task there
    have received : (task.files.filter s.photo).length = count := by
      rw [files,photos_photos,length_take,Nat.min_eq_left most]
    rw [received,if_neg (by omega)]
    have again : Held s (w.save .uploading count) := by
      intro _ same
      cases there.symm.trans same
      exact ⟨count,Nat.le_refl _,most,files⟩
    refine (settled.save again).goto ?_ fun _ => trivial
    rcases Nat.lt_or_eq_of_le most with less | rfl
    · exact .inl ⟨less,task,there,files⟩
    refine .inr ⟨Nat.le_refl _,Nat.le_refl _,task,there,?_⟩
    rw [files,Submission.files,World.goto,World.save,take_left,take_length]
  | uploaded | committed =>
    rw [phase] at held
    rw [held.1]
    exact settled.goto (photos_whole there held.1 (held.2 task there)) fun _ => trivial
  | committing =>
    rw [phase] at held
    dsimp only
    split
    · exact settled.goto trivial fun _ => trivial
    have again : Held s (w.save .committed s.files.length) := ⟨rfl,held.2⟩
    exact (settled.save again).goto (photos_whole there rfl (held.2 task there)) fun _ => trivial
  | _ => exact settled.goto trivial fun _ => trivial

theorem Counted.intent (counted : Counted w) (fresh : Bool) :
    Intends { w with initialization := some (begun w fresh) } (some (begun w fresh).generation) [] := by
  refine ⟨_,rfl,rfl,rfl,fun one => ?_⟩
  cases before : w.initialization with
  | none => exact counted.1 before
  | some record =>
    have least := (counted.2 record before).1
    simp [begun,before] at one
    omega

theorem Intends.counted (intends : Intends w generation calls) (least : ∀ record, w.initialization = some record → 1 ≤ record.generation) : Counted w := by
  obtain ⟨_,there,_,open_,_⟩ := intends
  refine ⟨fun none_ => ?_,fun other same => ⟨least other same,fun _ acknowledged => ?_⟩⟩
  · cases there.symm.trans none_
  cases there.symm.trans same
  rw [open_] at acknowledged
  cases acknowledged

theorem Intends.called (intends : Intends w generation []) (missing : w.task = none) : Intends w.called generation [⟨true,false⟩] := by
  obtain ⟨record,there,same,open_,calls⟩ := intends
  refine ⟨record,there,same,open_,fun one => ?_⟩
  rw [World.called,calls one,missing]
  rfl

theorem Counted.ambiguous (counted : Counted w) : Counted w.ambiguous := by
  refine ⟨fun none_ => counted.1 (Option.map_eq_none_iff.mp none_),fun record same => ?_⟩
  obtain ⟨old,there,rfl⟩ := Option.map_eq_some_iff.mp same
  exact counted.2 old there

theorem Settled.called (settled : Settled s historical w) (missing : w.task = none)
    (intends : historical = false → Intends w generation []) : Settled s historical w.called := by
  refine ⟨settled.held,settled.commits,fun modern => ?_⟩
  exact ((intends modern).called missing).counted fun record there => ((settled.recorded modern).2 record there).1

theorem Settled.created (settled : Settled s historical w) (missing : w.task = none) (phase : w.phase = .initializing) : Settled s historical w.created := by
  have held := settled.held
  refine ⟨?_,settled.commits,settled.recorded⟩
  unfold Held at held ⊢
  rw [show w.created.phase = w.phase from rfl,phase] at *
  refine ⟨held.1,fun task same => ?_⟩
  rw [World.created,missing] at same
  cases same
  rfl

theorem created_filled (missing : w.task = none) : Filled w.created [] := ⟨_,by rw [World.created,missing],rfl⟩

theorem Settled.acknowledge (settled : Settled s historical w) (filled : Filled w [])
    (intends : historical = false → Intends w (some generation) [⟨true,false⟩]) : Sound s historical (w.acknowledge generation) := by
  unfold World.acknowledge
  split
  · exact settled.stop
  rename_i record there
  split
  · refine ⟨⟨settled.held,settled.commits,fun modern => ⟨fun none_ => (by cases none_),fun after now => ?_⟩⟩,fun _ same => ?_⟩
    · obtain ⟨_,same,_,_,calls⟩ := intends modern
      cases there.symm.trans same
      cases now
      exact ⟨((settled.recorded modern).2 record there).1,fun one _ => by simp [calls one]⟩
    · cases same
      exact ⟨filled,fun _ => trivial⟩
  exact settled.stop

theorem step_sound (sound : Sound s historical w) (running : w.run = some pc) (ran : step s historical w pc reply = some v) : Sound s historical v := by
  have settled := sound.toSettled
  have held := settled.held
  obtain ⟨fact,claims⟩ := sound.fact pc running
  cases pc with
  | status =>
    cases reply <;> cases ran
    cases there : w.task with
    | none =>
      dsimp only
      split
      · exact settled.goto there fun _ => trivial
      exact settled.goto there fun _ => trivial
    | some => exact settled.resume there
  | remove =>
    have gone : Settled s historical { w with task := none } := ⟨held.gone,settled.commits,settled.recorded⟩
    cases reply <;> cases ran
    · exact gone.goto rfl fun _ => trivial
    · split
      · exact gone.stop
      · exact settled.stop
  | reset =>
    cases reply <;> cases ran
    have again : Held s (w.save .new 0) := trivial
    exact (settled.save again).goto fact fun _ => trivial
  | markAmbiguous =>
    cases reply <;> cases ran
    exact Settled.goto ⟨held,settled.commits,fun modern => (settled.recorded modern).ambiguous⟩ fact fun _ => trivial
  | begin fresh =>
    cases reply <;> cases ran
    split
    · rename_i old
      exact settled.goto fact fun modern => by rw [old] at modern; cases modern
    rename_i modern
    have counted := settled.recorded (eq_false_iff.mpr modern)
    have intends := counted.intent fresh
    refine Settled.goto ⟨held,settled.commits,fun _ => intends.counted ?_⟩ fact fun _ => intends
    intro _ same
    cases same
    exact Nat.le_add_left _ _
  | saveInitializing =>
    cases reply <;> cases ran
    have again : Held s (w.save .initializing 0) := ⟨rfl,fun task same => by cases fact.symm.trans same⟩
    exact (settled.save again).goto ⟨fact,rfl⟩ claims
  | initializeTask generation =>
    obtain ⟨missing,phase⟩ := fact
    have called := settled.called missing claims
    have made := called.created missing phase
    have empty : Filled w.called.created [] := created_filled missing
    have sent (modern : historical = false) := (claims modern).called missing
    cases reply with
    | failed =>
      cases generation <;> cases ran <;> split
      · exact made.stop
      · exact called.stop
      · exact made.stop
      · exact called.stop
    | partly => cases generation <;> cases ran
    | done | mismatched =>
      cases generation with
      | none =>
        cases ran
        exact made.goto empty fun _ => trivial
      | some =>
        cases ran
        exact made.goto empty sent
  | acknowledge =>
    cases reply <;> cases ran
    split
    · exact settled.acknowledge fact claims
    exact Settled.goto ⟨held,settled.commits,fun modern => (settled.recorded modern).ambiguous⟩ fact fun _ => trivial
  | saveInitialized =>
    cases reply <;> cases ran
    have again : Held s (w.save .initialized 0) := ⟨rfl,fun task there => fact.only there⟩
    exact (settled.save again).goto (.inl ⟨photos_first s,fact⟩) fun _ => trivial
  | photos index =>
    cases reply <;> cases ran
    split
    · rename_i more
      have filled : Filled w (s.photoFiles.take index) := by
        rcases fact with ⟨_,filled⟩ | ⟨_,past,_⟩
        · exact filled
        omega
      have again : Held s (w.save .uploading index) := fun task there => ⟨index,Nat.le_refl _,Nat.le_of_lt more,filled.only there⟩
      exact (settled.save again).goto ⟨more,rfl,rfl,filled⟩ fun _ => trivial
    rename_i past
    rcases fact with ⟨more,_⟩ | ⟨enough,_,filled⟩
    · exact absurd more past
    exact settled.sent enough filled
  | uploadPhotos index =>
    obtain ⟨more,phase,count,filled⟩ := fact
    have received (count : Nat) : Settled s historical (w.receive ((s.photoFiles.drop index).take count)) := by
      refine ⟨?_,settled.commits,settled.recorded⟩
      unfold Held
      rw [show (w.receive ((s.photoFiles.drop index).take count)).phase = w.phase from rfl,phase]
      refine fun task there => ⟨min (index + count) s.photoFiles.length,?_,Nat.min_le_right _ _,?_⟩
      · show w.uploadedFileCount ≤ _
        omega
      rw [(filled.receive _).only there,←take_add,take_eq_take_iff]
      omega
    cases reply <;> cases ran
    · refine (received 20).goto ⟨more,?_⟩ fun _ => trivial
      rw [take_add]
      exact filled.receive _
    · rw [batch,take_take]
      exact (received _).stop
  | savePhotos index =>
    obtain ⟨more,filled⟩ := fact
    cases reply <;> cases ran
    have sent : index + (batch s.photoFiles index).length = min (index + 20) s.photoFiles.length := by
      rw [batch,length_take,length_drop]
      omega
    rw [sent]
    have again : Held s (w.save .uploading (min (index + 20) s.photoFiles.length)) := by
      refine fun task there => ⟨min (index + 20) s.photoFiles.length,Nat.le_refl _,Nat.min_le_right _ _,?_⟩
      rw [filled.only there,take_eq_take_iff]
      omega
    refine (settled.save again).goto ?_ fun _ => trivial
    rcases Nat.lt_or_ge (index + 20) s.photoFiles.length with less | past
    · exact .inl ⟨less,filled⟩
    have count : min (index + 20) s.photoFiles.length = s.photoFiles.length := by omega
    rw [count]
    refine .inr ⟨Nat.le_refl _,past,?_⟩
    rw [take_of_length_le past] at filled
    rw [Submission.files,World.goto,World.save,take_left]
    exact filled
  | auxiliary index =>
    cases reply <;> cases ran
    split
    · have again : Held s (w.save .uploadingAuxiliary (s.photoFiles.length + index)) := trivial
      exact (settled.save again).goto ⟨rfl,fact⟩ fun _ => trivial
    rename_i past
    have filled : Filled w (s.photoFiles++s.auxiliaryFiles.take index) := fact
    rw [take_of_length_le (by omega)] at filled
    exact settled.finish filled
  | uploadAuxiliary index =>
    obtain ⟨phase,filled⟩ := fact
    have received (files : List File) : Settled s historical (w.receive files) := by
      refine ⟨?_,settled.commits,settled.recorded⟩
      unfold Held
      rw [show (w.receive files).phase = w.phase from rfl,phase]
      trivial
    cases reply <;> cases ran
    · refine (received _).goto ?_ fun _ => trivial
      have sent := filled.receive (batch s.auxiliaryFiles index)
      rw [append_assoc,take_batch] at sent
      exact sent
    · exact (received _).stop
  | saveAuxiliary index =>
    cases reply <;> cases ran
    have again : Held s (w.save .uploadingAuxiliary (s.photoFiles.length + index + (batch s.auxiliaryFiles index).length)) := trivial
    exact (settled.save again).goto fact fun _ => trivial
  | saveUploaded =>
    cases reply <;> cases ran
    have again : Held s (w.save .uploaded s.files.length) := ⟨rfl,fun task there => fact.only there⟩
    exact (settled.save again).goto fact fun _ => trivial
  | saveCommitting =>
    cases reply <;> cases ran
    have again : Held s (w.save .committing s.files.length) := ⟨rfl,fun task there => fact.only there⟩
    exact (settled.save again).goto fact fun _ => trivial
  | commit =>
    have sent : ∀ sent ∈ w.commits++[w.task.map Task.files], sent = some s.files := by
      obtain ⟨_,there,files⟩ := fact
      simp only [mem_append,mem_singleton]
      rintro sent (old | rfl)
      · exact settled.commits sent old
      · rw [there,←files]
        rfl
    have committed : Settled s historical { w with commits := w.commits++[w.task.map Task.files] } := ⟨held,sent,settled.recorded⟩
    cases reply <;> cases ran
    · exact committed.goto fact fun _ => trivial
    · exact committed.stop
  | saveCommitted =>
    cases reply <;> cases ran
    have again : Held s (w.save .committed s.files.length) := ⟨rfl,fun task there => fact.only there⟩
    exact (settled.save again).stop

theorem Filled.provider (filled : Filled w files) (change : Task File → Task File) (kept : ∀ task, (change task).files = task.files) :
    Filled { w with task := w.task.map change } files := by
  obtain ⟨task,there,rfl⟩ := filled
  exact ⟨change task,by rw [there]; rfl,kept task⟩

theorem Sound.provider (sound : Sound s historical w) (status : Status) :
    Sound s historical { w with task := w.task.map fun task => { task with status := status } } := by
  have moved (files : List File) (filled : Filled w files) := filled.provider (fun task => { task with status := status }) fun _ => rfl
  refine ⟨⟨?_,sound.commits,sound.recorded⟩,fun pc running => ⟨?_,(sound.fact pc running).2⟩⟩
  · have held := sound.held
    unfold Held at held ⊢
    cases phase : w.phase <;> rw [phase] at held <;> simp_all
  have fact := (sound.fact pc running).1
  cases pc <;> simp only [Fact] at fact ⊢
  case photos index => exact fact.imp (fun known => ⟨known.1,moved _ known.2⟩) fun known => ⟨known.1,known.2.1,moved _ known.2.2⟩
  case uploadPhotos index => exact ⟨fact.1,fact.2.1,fact.2.2.1,moved _ fact.2.2.2⟩
  case savePhotos index => exact ⟨fact.1,moved _ fact.2⟩
  case uploadAuxiliary index => exact ⟨fact.1,moved _ fact.2⟩
  case initializeTask generation => exact ⟨by rw [fact.1]; rfl,fact.2⟩
  all_goals first | exact moved _ fact | rw [fact]; rfl

theorem next_sound (sound : Sound s historical w) (moved : Step s historical w event v) : Sound s historical v := by
  cases event with
  | processSubmit =>
    obtain ⟨_,same⟩ := Option.ite_none_right_eq_some.mp moved
    cases same
    exact sound.toSettled.goto trivial fun _ => trivial
  | call =>
    obtain ⟨_,running,ran⟩ := Option.bind_eq_some_iff.mp moved
    exact step_sound sound running ran
  | interrupt =>
    cases moved
    exact sound.toSettled.stop
  | provider status =>
    cases moved
    exact sound.provider status
end

theorem submission_exact (s : Submission File) (historical others : Bool) (events : List Event) (final : World File)
    (path : Runs (Step s historical) .start events final) :
    (∀ sent ∈ final.commits, Exactly s sent) ∧ (verifiedReceipt s historical others final = true → final.initializes = [⟨true,true⟩]) := by
  have start : Sound s historical .start :=
    ⟨⟨trivial,forall_mem_nil _,fun _ => ⟨fun _ => rfl,fun _ same => by cases same⟩⟩,fun _ same => by cases same⟩
  have sound := path.preserves (Sound s historical) (fun _ _ _ sound moved => next_sound sound moved) start
  refine ⟨fun sent mem => sound.commits sent mem ▸ files_exact s,fun receipt => ?_⟩
  simp only [verifiedReceipt,and_eq_true,not_eq_true',Option.any_eq_true,beq_iff_eq] at receipt
  obtain ⟨⟨⟨⟨modern,_⟩,record,there,⟨acknowledged,_⟩,one⟩,_⟩,_⟩ := receipt
  exact ((sound.recorded modern).2 record there).2 one acknowledged

def twoFiles : Submission Nat := ⟨[1,2],fun file => file = 1,by decide,by decide⟩

def cutShort : List Event :=
  .processSubmit :: replicate 7 (.call .done)++.call (.partly 20) :: .processSubmit :: replicate 10 (.call .done)

theorem submission_exact_example : ∃ final, final.commits = [some [1,2]] ∧ (∀ sent ∈ final.commits, Exactly twoFiles sent) ∧
    (verifiedReceipt twoFiles false true final = true → final.initializes = [⟨true,true⟩]) :=
  ⟨⟨.committed,2,some ⟨1,true,false⟩,some ⟨[1,2],.another⟩,none,[some [1,2]],[⟨true,true⟩]⟩,rfl,
    submission_exact twoFiles false true cutShort _ (Runs.of_follow (by decide))⟩
end LedgeTopOps.ProviderSubmission
