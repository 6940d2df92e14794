import LedgeTopOps.StepRuns

namespace LedgeTopOps.AtomicPrograms
open StepRuns Function

-- Programs that share a store and touch it by atomic calls only; every model instantiates the store, the results and
-- the code. A call that fails has no effect, and the program goes on with its handler.
inductive Program (σ ρ : Type) where
  | done (result : ρ)
  | call (effect : σ → σ) (next : σ → Program σ ρ) (failed : Program σ ρ)

namespace Program

def read (failed : Program σ ρ) (next : σ → Program σ ρ) : Program σ ρ := .call id next failed

def bind : Program σ α → (α → Program σ ρ) → Program σ ρ
  | .done result, after => after result
  | .call effect next failed, after => .call effect (fun s => (next s).bind after) (failed.bind after)

-- The program alone, with no call failing.
def run : Program σ ρ → σ → σ × ρ
  | .done result, s => (s,result)
  | .call effect next _, s => (next s).run (effect s)

@[simp] theorem run_read (failed : Program σ ρ) (next : σ → Program σ ρ) (s : σ) :
    (read failed next).run s = (next s).run s := rfl
end Program

-- What a program is promised between its calls, and what each of its calls
-- promises the others. `inside` is what holds whenever it makes a call.
structure Terms (σ ρ : Type) where
  inside : σ → Prop
  rely : σ → σ → Prop
  guarantee : σ → σ → Program σ ρ → Prop
  post : ρ → σ → Prop

section
variable {σ ρ : Type}

def Obeys (terms : Terms σ ρ) : Program σ ρ → σ → Prop
  | .done result, s => terms.post result s
  | .call effect next failed, s => ∀ t, terms.rely s t → terms.inside t →
      (terms.guarantee t (effect t) (next t) ∧ Obeys terms (next t) (effect t)) ∧ Obeys terms failed t

-- A read changes nothing, so only what is read matters.
theorem obeys_read {next : σ → Program σ ρ} (idle : ∀ t, terms.inside t → terms.guarantee t t (next t))
    (after : ∀ t, terms.rely s t → terms.inside t → Obeys terms (next t) t ∧ Obeys terms failed t) : Obeys terms (.read failed next) s := by
  intro t relied inside
  exact ⟨⟨idle t inside,(after t relied inside).1⟩,(after t relied inside).2⟩

theorem Obeys.later {program : Program σ ρ} (trans : ∀ {s t u}, terms.rely s t → terms.rely t u → terms.rely s u)
    (stable : ∀ {result s t}, terms.post result s → terms.rely s t → terms.post result t)
    (obeys : Obeys terms program s) (relied : terms.rely s t) : Obeys terms program t := by
  cases program with
  | done => exact stable obeys relied
  | call => exact fun u second inside => obeys u (trans relied second) inside
end

structure System (σ ι κ ρ : Type) where
  store : σ
  programs : ι → Option (κ × Program σ ρ)

inductive Event (ι κ : Type) where
  | start (name : ι) (request : κ)
  | call (name : ι)
  | failed (name : ι)
  | outside

-- What a system runs: the code of a request, when a request may be made, when a
-- program may act, and what else happens to the store.
structure Setting (σ ι κ ρ : Type) where
  code : ι → κ → Program σ ρ
  (enter may : ι → κ → σ → Prop)
  outside : σ → σ → Prop

section
variable {σ ι κ ρ : Type} [DecidableEq ι]

-- A program may also stop for good after any of its calls: nothing obliges it to go on.
inductive Step (setting : Setting σ ι κ ρ) : System σ ι κ ρ → Event ι κ → System σ ι κ ρ → Prop where
  | start (fresh : programs name = none) (entered : setting.enter name request store) :
      Step setting ⟨store,programs⟩ (.start name request)
        ⟨store,update programs name (some (request,setting.code name request))⟩
  | call (current : programs name = some (request,.call effect next handler)) (may : setting.may name request store) :
      Step setting ⟨store,programs⟩ (.call name)
        ⟨effect store,update programs name (some (request,next store))⟩
  | failed (current : programs name = some (request,.call effect next handler)) (may : setting.may name request store) :
      Step setting ⟨store,programs⟩ (.failed name) ⟨store,update programs name (some (request,handler))⟩
  | outside (moved : setting.outside store after) : Step setting ⟨store,programs⟩ .outside ⟨after,programs⟩

def System.initial (store : σ) : System σ ι κ ρ := ⟨store,fun _ => none⟩

section
variable {before after : System σ ι κ ρ}

theorem Step.stands (taken : Step setting before event after) (found : before.programs name = some (request,program)) :
    ∃ further, after.programs name = some (request,further) := by
  have updated : ∀ {programs : ι → Option (κ × Program σ ρ)} {other : ι} {asked : κ} {further : Program σ ρ},
      programs name = some (request,program) → (other = name → asked = request) →
        ∃ later, update programs other (some (asked,further)) name = some (request,later) := by
    intro _ other _ further held same
    by_cases equal : name = other
    · subst equal
      exact ⟨further,by rw [update_self,same rfl]⟩
    exact ⟨program,by rw [update_of_ne equal,held]⟩
  cases taken with
  | start fresh =>
    apply updated found
    intro equal
    subst equal
    have clash := fresh.symm.trans found
    cases clash
  | call current | failed current =>
    apply updated found
    intro equal
    subst equal
    have same := current.symm.trans found
    cases same
    rfl
  | outside => exact ⟨program,found⟩

theorem Step.finished (taken : Step setting before event after)
    (found : before.programs name = some (request,.done result)) : after.programs name = some (request,.done result) := by
  have untouched : ∀ {other : ι} {entry : Option (κ × Program σ ρ)}, other ≠ name →
      update before.programs other entry name = some (request,.done result) := by
    intro _ _ different
    rw [update_of_ne different.symm,found]
  cases taken with
  | start fresh =>
    apply untouched
    intro equal
    subst equal
    have clash := fresh.symm.trans found
    cases clash
  | call current | failed current =>
    apply untouched
    intro equal
    subst equal
    have clash := current.symm.trans found
    cases clash
  | outside => exact found

theorem update_cases {other : ι} (found : update programs other (some (asked,further)) name = some (request,program)) :
    (other = name ∧ asked = request) ∨ programs name = some (request,program) := by
  by_cases equal : name = other
  · subst equal
    rw [update_self] at found
    cases found
    exact .inl ⟨rfl,rfl⟩
  rw [update_of_ne equal] at found
  exact .inr found

theorem entered_requests {property : ι → κ → Prop} (holds : ∀ name request s, setting.enter name request s → property name request)
    (path : Runs (Step setting) (System.initial store) events after) :
    ∀ name request program, after.programs name = some (request,program) → property name request := by
  refine path.preserves (fun system => ∀ name request program, system.programs name = some (request,program) → property name request) ?_ ?_
  · intro _ _ _ kept taken name request program found
    cases taken with
    | start _ entered =>
      rcases update_cases found with ⟨rfl,rfl⟩ | old
      · exact holds _ _ _ entered
      exact kept name request program old
    | call current | failed current =>
      rcases update_cases found with ⟨rfl,rfl⟩ | old
      · exact kept _ _ _ current
      exact kept name request program old
    | outside => exact kept name request program found
  intro _ _ _ found
  cases found
end

-- The obligations: an invariant of the store, and terms for every request that its code obeys and everything else
-- respects.
structure Discipline (setting : Setting σ ι κ ρ) (valid : σ → Prop) (terms : ι → κ → Terms σ ρ) : Prop where
  same : ∀ name request s, (terms name request).rely s s
  trans : ∀ name request {s t u}, (terms name request).rely s t → (terms name request).rely t u → (terms name request).rely s u
  stable : ∀ name request {result s t}, (terms name request).post result s → (terms name request).rely s t →
    (terms name request).post result t
  inside : ∀ name request s, valid s → setting.may name request s → (terms name request).inside s
  entered : ∀ name request s, valid s → setting.enter name request s →
    Obeys (terms name request) (setting.code name request) s
  outside : ∀ s t, valid s → setting.outside s t → valid t ∧ ∀ name request, (terms name request).rely s t
  kept : ∀ name request s t next, valid s → setting.may name request s → (terms name request).guarantee s t next →
    valid t ∧ ∀ other, other ≠ name → ∀ asked, (terms other asked).rely s t

structure Orderly (valid : σ → Prop) (terms : ι → κ → Terms σ ρ) (system : System σ ι κ ρ) : Prop where
  valid : valid system.store
  obeys : ∀ name request program, system.programs name = some (request,program) →
    Obeys (terms name request) program system.store

section
variable {valid : σ → Prop} {terms : ι → κ → Terms σ ρ} {before after : System σ ι κ ρ}

omit [DecidableEq ι] in
theorem Orderly.started (store : σ) (holds : valid store) : Orderly valid terms (System.initial store : System σ ι κ ρ) :=
  ⟨holds,fun _ _ _ found => nomatch found⟩

theorem Discipline.others (discipline : Discipline setting valid terms) (orderly : Orderly valid terms ⟨store,programs⟩)
    (respects : ∀ other, other ≠ name → ∀ asked, (terms other asked).rely store moved)
    (own : Obeys (terms name request) program moved) (other : ι) (asked : κ) (further : Program σ ρ)
    (found : update programs name (some (request,program)) other = some (asked,further)) : Obeys (terms other asked) further moved := by
  by_cases same : other = name
  · subst same
    rw [update_self] at found
    cases found
    exact own
  rw [update_of_ne same] at found
  exact (orderly.obeys other asked further found).later (discipline.trans other asked) (discipline.stable other asked) (respects other same asked)

theorem Discipline.step (discipline : Discipline setting valid terms) (orderly : Orderly valid terms before)
    (taken : Step setting before event after) : Orderly valid terms after := by
  cases taken with
  | start _ entered =>
    refine ⟨orderly.valid,?_⟩
    apply discipline.others orderly
    · exact fun other _ asked => discipline.same other asked _
    · exact discipline.entered _ _ _ orderly.valid entered
  | call current may =>
    have own := orderly.obeys _ _ _ current _ (discipline.same _ _ _) (discipline.inside _ _ _ orderly.valid may)
    have kept := discipline.kept _ _ _ _ _ orderly.valid may own.1.1
    exact ⟨kept.1,discipline.others orderly kept.2 own.1.2⟩
  | failed current may =>
    have own := orderly.obeys _ _ _ current _ (discipline.same _ _ _) (discipline.inside _ _ _ orderly.valid may)
    exact ⟨orderly.valid,discipline.others orderly (fun other _ asked => discipline.same other asked _) own.2⟩
  | outside moved =>
    have kept := discipline.outside _ _ orderly.valid moved
    refine ⟨kept.1,fun name request program found => ?_⟩
    exact (orderly.obeys name request program found).later (discipline.trans name request) (discipline.stable name request) (kept.2 name request)

theorem Discipline.reached (discipline : Discipline setting valid terms) (holds : valid store)
    (path : Runs (Step setting) (System.initial store) events after) : Orderly valid terms after :=
  path.preserves (Orderly valid terms) (fun _ _ _ orderly taken => discipline.step orderly taken)
    (Orderly.started store holds)

omit [DecidableEq ι] in
theorem Orderly.result {result : ρ} (orderly : Orderly valid terms after) (given : after.programs name = some (request,.done result)) :
    (terms name request).post result after.store := orderly.obeys name request _ given

theorem Discipline.effect (discipline : Discipline setting valid terms) (orderly : Orderly valid terms before)
    (taken : Step setting before event after) : after.store = before.store ∨ (event = .outside ∧ setting.outside before.store after.store) ∨
      ∃ name request program, event = .call name ∧ after.programs name = some (request,program) ∧ setting.may name request before.store ∧
        (terms name request).guarantee before.store after.store program := by
  cases taken with
  | start | failed => exact .inl rfl
  | call current may =>
    have own := orderly.obeys _ _ _ current _ (discipline.same _ _ _) (discipline.inside _ _ _ orderly.valid may)
    exact .inr (.inr ⟨_,_,_,rfl,update_self ..,may,own.1.1⟩)
  | outside moved => exact .inr (.inl ⟨rfl,moved⟩)
end

def System.play (setting : Setting σ ι κ ρ) (outside : σ → σ) (system : System σ ι κ ρ) : Event ι κ → System σ ι κ ρ
  | .start name request =>
    ⟨system.store,update system.programs name (some (request,setting.code name request))⟩
  | .call name => match system.programs name with
    | some (request,.call effect next _) =>
      ⟨effect system.store,update system.programs name (some (request,next system.store))⟩
    | _ => system
  | .failed name => match system.programs name with
    | some (request,.call _ _ handler) => ⟨system.store,update system.programs name (some (request,handler))⟩
    | _ => system
  | .outside => ⟨outside system.store,system.programs⟩

def System.Playable (setting : Setting σ ι κ ρ) (outside : σ → σ) (system : System σ ι κ ρ) : Event ι κ → Prop
  | .start name request => system.programs name = none ∧ setting.enter name request system.store
  | .call name | .failed name => match system.programs name with
    | some (request,.call _ _ _) => setting.may name request system.store
    | _ => False
  | .outside => setting.outside system.store (outside system.store)

theorem System.play_step {system : System σ ι κ ρ}
    (playable : system.Playable setting outside event) : Step setting system event (system.play setting outside event) := by
  cases event with
  | start => exact .start playable.1 playable.2
  | call name =>
    change (match system.programs name with
      | some (request,.call _ _ _) => setting.may name request system.store
      | _ => False) at playable
    show Step setting system _ (match system.programs name with
      | some (request,.call effect next _) =>
        ⟨effect system.store,update system.programs name (some (request,next system.store))⟩
      | _ => system)
    split at playable
    · rename_i current
      exact .call current playable
    exact playable.elim
  | failed name =>
    change (match system.programs name with
      | some (request,.call _ _ _) => setting.may name request system.store
      | _ => False) at playable
    show Step setting system _ (match system.programs name with
      | some (request,.call _ _ handler) => ⟨system.store,update system.programs name (some (request,handler))⟩
      | _ => system)
    split at playable
    · rename_i current
      exact .failed current playable
    exact playable.elim
  | outside => exact .outside playable

theorem System.played {events : List (Event ι κ)} (playable : Admitted (System.play setting outside) (System.Playable setting outside) system events) :
    Runs (Recorded (Step setting)) system (trace (System.play setting outside) system events) (events.foldl (System.play setting outside) system) := by
  induction events generalizing system with
  | nil => exact .nil
  | cons _ _ ih => exact .cons ⟨rfl,rfl,System.play_step playable.1⟩ (ih playable.2)

section
variable (setting : Setting σ ι κ ρ) [∀ name request s, Decidable (setting.enter name request s)]
  [∀ name request s, Decidable (setting.may name request s)]

def System.accepts (system : System σ ι κ ρ) : Event ι κ → Bool
  | .start name request => (system.programs name).isNone && decide (setting.enter name request system.store)
  | .call name | .failed name => match system.programs name with
    | some (request,.call _ _ _) => decide (setting.may name request system.store)
    | _ => false
  | .outside => false

def System.replays (system : System σ ι κ ρ) : List (Event ι κ) → Bool
  | [] => true
  | event :: rest => system.accepts setting event && (system.play setting id event).replays rest

variable {setting} {system : System σ ι κ ρ}

omit [DecidableEq ι] in
theorem System.playable_of_accepts (accepted : system.accepts setting event) : system.Playable setting id event := by
  cases event with
  | start =>
    obtain ⟨fresh,entered⟩ := Bool.and_eq_true_iff.mp accepted
    exact ⟨Option.isNone_iff_eq_none.mp fresh,of_decide_eq_true entered⟩
  | call name | failed name =>
    change (match system.programs name with
      | some (request,.call _ _ _) => decide (setting.may name request system.store)
      | _ => false) = true at accepted
    show (match system.programs name with
      | some (request,.call _ _ _) => setting.may name request system.store
      | _ => False)
    split at accepted
    · exact of_decide_eq_true accepted
    cases accepted
  | outside => cases accepted

theorem System.replayed (replays : system.replays setting events) :
    Runs (Recorded (Step setting)) system (trace (System.play setting id) system events) (events.foldl (System.play setting id) system) := by
  induction events generalizing system with
  | nil => exact .nil
  | cons _ _ ih =>
    obtain ⟨accepted,further⟩ := Bool.and_eq_true_iff.mp replays
    exact .cons ⟨rfl,rfl,System.play_step (System.playable_of_accepts accepted)⟩ (ih further)
end
end

-- One program after another on one store. The next may start at any time: what the one before had still to do is then
-- lost.
structure Line (σ κ ρ : Type) where
  store : σ
  current : Option (κ × Program σ ρ)

inductive Turn (κ : Type) where
  | start (request : κ)
  | call
  | failed

variable {σ κ ρ : Type} {code : κ → Program σ ρ} {valid : σ → Prop} {terms : κ → Terms σ ρ} {line after : Line σ κ ρ}

inductive Line.Step (code : κ → Program σ ρ) : Line σ κ ρ → Turn κ → Line σ κ ρ → Prop where
  | start : Line.Step code ⟨world,earlier⟩ (.start request) ⟨world,some (request,code request)⟩
  | call : Line.Step code ⟨world,some (request,.call effect next handler)⟩ .call ⟨effect world,some (request,next world)⟩
  | failed : Line.Step code ⟨world,some (request,.call effect next handler)⟩ .failed ⟨world,some (request,handler)⟩

structure Line.Discipline (code : κ → Program σ ρ) (valid : σ → Prop) (terms : κ → Terms σ ρ) : Prop where
  same : ∀ request s, (terms request).rely s s
  inside : ∀ request s, valid s → (terms request).inside s
  entered : ∀ request s, valid s → Obeys (terms request) (code request) s
  kept : ∀ request s t next, valid s → (terms request).guarantee s t next → valid t

structure Line.Orderly (valid : σ → Prop) (terms : κ → Terms σ ρ) (line : Line σ κ ρ) : Prop where
  valid : valid line.store
  obeys : ∀ request program, line.current = some (request,program) → Obeys (terms request) program line.store

theorem Line.Discipline.step (discipline : Line.Discipline code valid terms) (orderly : Line.Orderly valid terms line)
    (taken : Line.Step code line turn after) : Line.Orderly valid terms after := by
  cases taken with
  | start =>
    refine ⟨orderly.valid,fun request program found => ?_⟩
    cases found
    exact discipline.entered _ _ orderly.valid
  | call =>
    have own := orderly.obeys _ _ rfl _ (discipline.same _ _) (discipline.inside _ _ orderly.valid)
    refine ⟨discipline.kept _ _ _ _ orderly.valid own.1.1,fun request program found => ?_⟩
    cases found
    exact own.1.2
  | failed =>
    have own := orderly.obeys _ _ rfl _ (discipline.same _ _) (discipline.inside _ _ orderly.valid)
    refine ⟨orderly.valid,fun request program found => ?_⟩
    cases found
    exact own.2

theorem Line.Discipline.effect (discipline : Line.Discipline code valid terms) (orderly : Line.Orderly valid terms line)
    (taken : Line.Step code line turn after) : after.store = line.store ∨
      ∃ request program, after.current = some (request,program) ∧ (terms request).guarantee line.store after.store program := by
  cases taken with
  | start | failed => exact .inl rfl
  | call =>
    have own := orderly.obeys _ _ rfl _ (discipline.same _ _) (discipline.inside _ _ orderly.valid)
    exact .inr ⟨_,_,rfl,own.1.1⟩

def Line.play (code : κ → Program σ ρ) (line : Line σ κ ρ) : Turn κ → Line σ κ ρ
  | .start request => ⟨line.store,some (request,code request)⟩
  | .call => match line.current with
    | some (request,.call effect next _) => ⟨effect line.store,some (request,next line.store)⟩
    | _ => line
  | .failed => match line.current with
    | some (request,.call _ _ handler) => ⟨line.store,some (request,handler)⟩
    | _ => line

def Line.unfinished (line : Line σ κ ρ) : Bool :=
  match line.current with
  | some (_,.call _ _ _) => true
  | _ => false

def Line.Playable (line : Line σ κ ρ) : Turn κ → Prop
  | .start _ => True
  | _ => line.unfinished = true

instance decidePlayable (line : Line σ κ ρ) : (turn : Turn κ) → Decidable (line.Playable turn)
  | .start _ => .isTrue trivial
  | .call => inferInstanceAs (Decidable (line.unfinished = true))
  | .failed => inferInstanceAs (Decidable (line.unfinished = true))

theorem Line.unfinished_call (line : Line σ κ ρ) (unfinished : line.unfinished) :
    ∃ request effect next handler, line.current = some (request,.call effect next handler) := by
  unfold Line.unfinished at unfinished
  split at unfinished
  · rename_i request effect next handler current
    exact ⟨request,effect,next,handler,current⟩
  cases unfinished

theorem Line.play_step (playable : line.Playable turn) : Line.Step code line turn (line.play code turn) := by
  cases turn with
  | start => exact .start
  | call =>
    obtain ⟨_,_,_,_,current⟩ := line.unfinished_call playable
    obtain ⟨_,_⟩ := line
    cases current
    exact .call
  | failed =>
    obtain ⟨_,_,_,_,current⟩ := line.unfinished_call playable
    obtain ⟨_,_⟩ := line
    cases current
    exact .failed

theorem Line.played (playable : Admitted (Line.play code) Line.Playable line turns) :
    Runs (Recorded (Line.Step code)) line (trace (Line.play code) line turns) (turns.foldl (Line.play code) line) := by
  induction turns generalizing line with
  | nil => exact .nil
  | cons _ _ ih => exact .cons ⟨rfl,rfl,Line.play_step playable.1⟩ (ih playable.2)
end LedgeTopOps.AtomicPrograms
