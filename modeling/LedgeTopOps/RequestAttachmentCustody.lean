import LedgeTopOps.RequestAttachments
import LedgeTopOps.FlowLists

namespace LedgeTopOps.RequestAttachments
open KeyedRows StepRuns FlowLists Option
open Bool (and_eq_true_iff eq_false_iff)

structure View where
  status : Status
  (claimed actual : Option Nat)

def Attachment.view (row : Attachment) : View := ⟨row.status,row.claimed,row.actual⟩
def Cell.view (c : Cell) : Option View := c.row.map Attachment.view
def removed (view : Option View) : Prop := ∃ v, view = some v ∧ v.status.removed = true
def kept (view : Option View) : Prop := ∃ v, view = some v ∧ v.status.kept = true
def uploading (view : Option View) : Prop := ∃ v, view = some v ∧ v.status = .uploading
def unscanned (view : Option View) : Prop := ∃ v, view = some v ∧ (v.status = .quarantined ∨ v.status = .scanning)

def Pc.holder : Pc → Option Nat
  | .compose run | .composeHead run | .unclaim run | .release run | .probe run _ | .settle run _ | .refuse run _ | .revoke run => some run.name
  | _ => none

def Pc.bare : Pc → Bool
  | .compose _ | .composeHead _ | .unclaim _ | .release _ => true
  | _ => false

def Pc.owing : Pc → Bool
  | .probe _ _ | .settle _ _ | .refuse _ _ | .revoke _ | .abortBucket | .remove => true
  | _ => false

-- A flow that deletes the object of a row that has been removed; one that has deleted
-- the object of an expired row; the size a completion has seen.
def Pc.removing : Pc → Bool
  | .abortBucket | .remove => true
  | _ => false

def Pc.swept : Pc → Bool
  | .cleanMark => true
  | _ => false

def Pc.vouched : Pc → Option Nat
  | .probe _ size | .settle _ size => some size
  | _ => none

def Pc.early : Pc → Bool
  | .initRead _ | .insert _ => true
  | _ => false

structure Fits (view : Option View) (object : Option Nat) (pc : Pc) : Prop where
  held : ∀ name, pc.holder = some name → ¬kept view ∧ ∀ v, view = some v → v.status = .uploading → v.claimed = some name
  bare : pc.bare = true → object = none
  removing : pc.removing = true → ¬kept view ∧ ¬uploading view

inductive Handled (others : Bool) (view view' : Option View) (object object' : Option Nat) (pc after : Pc) : Prop where
  | calm (same : view' = view) (still : object' = object) (fits : Fits view object after) (holder : after.holder = none ∨ after.holder = pc.holder)
      (owing : pc.owing = true → after.owing = true ∨ object = none ∨ view = none ∨ others = true)
      (swept : pc.swept = true → ¬uploading view ∧ ¬unscanned view)
      (vouched : after.vouched = none ∨ after.vouched = pc.vouched ∨ after.vouched = object)
  | claimed (v : View) (was : view = some v) (before : v.status = .uploading ∧ v.claimed = none) (name : Nat)
      (becomes : view' = some { v with claimed := some name }) (still : object' = object) (goes : after.holder = some name) (bare : after.bare = true)
      (other : after.removing = false ∧ after.vouched = none) (light : pc.owing = false ∧ pc.swept = false)
  | composed (same : view' = view) (size : Nat) (makes : object' = some size) (holder : pc.holder ≠ none) (goes : after.holder = pc.holder)
      (owing : after.owing = true) (vouched : after.vouched = some size) (other : after.bare = false ∧ after.removing = false) (light : pc.swept = false)
  | unclaimed (v : View) (was : view = some v) (becomes : view' = some { v with claimed := none }) (before : v.status = .uploading) (still : object' = object)
      (holder : pc.holder ≠ none) (bare : pc.bare = true) (goes : after = .halted)
  | deleted (same : view' = view) (none' : object' = none) (before : ¬kept view) (empty : pc.removing = true ∨ pc.holder ≠ none)
      (goes : after.holder = none ∨ after.holder = pc.holder) (other : after.removing = false ∧ after.vouched = none) (light : pc.swept = false)
  | settled (v : View) (was : view = some v) (before : v.status = .uploading) (size : Nat) (becomes : view' = some ⟨.quarantined,none,some size⟩)
      (still : object' = object) (holder : pc.holder ≠ none) (vouched : pc.vouched = some size) (goes : after = .halted)
  | killed (was : view ≠ none) (gone : removed view') (still : object' = object) (goes : after.holder = none) (other : after.bare = false ∧ after.vouched = none)
      (owing : kept view ∨ pc.owing = true → after.owing = true ∨ object = none)
  | swept (same : view' = view) (none' : object' = none) (before : ∀ v, view = some v → v.status ≠ .accepted) (goes : after = .cleanMark)
      (light : pc.owing = false)
  | accepted (v : View) (was : view = some v) (before : v.status = .quarantined ∨ v.status = .scanning)
      (becomes : view' = some { v with status := .accepted }) (still : object' = object) (there : object ≠ none) (goes : after = .halted)
      (light : pc.owing = false ∧ pc.swept = false ∧ pc.holder = none)
  | dropped (gone : view' = none) (before : uploading view) (still : object' = object) (goes : after = .halted) (light : pc.owing = false ∧ pc.swept = false)

def Pc.spared (c : Cell) (others : Bool) : Pc → Reply → Bool
  | .settle run _, .flag _ => run.native || c.matching run.mine || !c.matching (·.status.removed) || c.object.isNone || others
  | .abortBucket, .failed => !c.matching (·.status.removed) || c.object.isNone || others
  | .cleanDelete, .ok => !c.matching (·.status = .accepted)
  | .scanMark receipt, .ok => !receipt.clean || c.object.isSome || !c.matching (fun row => row.status = .quarantined || row.status = .scanning)
  | .cleanMark, .ok => c.object.isNone || !c.matching (fun row => row.status = .quarantined || row.status = .scanning)
  | _, _ => true

def World.owed (w : World) (index id : Nat) : Bool := (w.flows.eraseIdx index).any fun flow => flow.1 = id && flow.2.owing

def spared (w : World) : Action → Bool
  | .reply index reply => match w.flows[index]? with
    | some flow => flow.2.spared (w.cells flow.1) (w.owed index flow.1) reply
    | none => true
  | _ => true

-- One attachment in the hands of its flows: at most one completion holds it, a removed row's object is answered for,
-- a kept row has the object it recorded.
structure Custody (view : Option View) (object : Option Nat) (flows : List (Nat × Pc)) (id : Nat) : Prop where
  fits : ∀ pc, (id,pc) ∈ flows → Fits view object pc
  single : ∀ (i j : Nat) (p q : Pc), flows[i]? = some (id,p) → flows[j]? = some (id,q) → p.holder ≠ none → q.holder ≠ none → i = j
  owed : object ≠ none → kept view ∨ view = none ∨ ∃ pc, (id,pc) ∈ flows ∧ pc.owing = true
  whole : ∀ v, view = some v → v.status = .quarantined ∨ v.status = .scanning →
    (∃ size, object = some size ∧ v.actual = some size) ∨ (object = none ∧ ∃ pc, (id,pc) ∈ flows ∧ pc.swept = true)
  safe : ∀ v, view = some v → v.status = .accepted → ∃ size, object = some size ∧ v.actual = some size
  full : ∀ pc size, (id,pc) ∈ flows → pc.vouched = some size → uploading view →
    object = some size ∨ (object = none ∧ ∃ pc, (id,pc) ∈ flows ∧ pc.swept = true)

section
variable {flows : List (Nat × Pc)} {id index : Nat} {pc after q : Pc} {others : Bool}

theorem moved_flow (mem : (id,q) ∈ flows.set index (id,after)) : q = after ∨ ∃ other, other ≠ index ∧ flows[other]? = some (id,q) :=
  (moved_member mem).imp_left (congrArg Prod.snd)

theorem owing_kind (owes : q.owing) : q.holder ≠ none ∨ q.removing := by
  cases q with
  | probe | settle | refuse | revoke => exact .inl nofun
  | abortBucket | remove => exact .inr rfl
  | _ => cases owes

theorem vouched_holder (vouched : q.vouched = some size) : q.holder ≠ none := by
  cases q with
  | probe | settle => exact nofun
  | _ => cases vouched

theorem bare_holder (bare : q.bare) : q.holder ≠ none := by
  cases q with
  | compose | composeHead | unclaim | release => exact nofun
  | _ => cases bare

theorem not_kept_of_uploading (up : uploading view) : ¬kept view := by
  obtain ⟨v,was,status⟩ := up
  intro held
  obtain ⟨u,is,keeps⟩ := held
  cases was.symm.trans is
  rw [status] at keeps; cases keeps

section
variable (custody : Custody view object flows id) (here : flows[index]? = some (id,pc))
include custody here

theorem Custody.moves (own : Fits view' object' after)
    (rest : ∀ other q, other ≠ index → flows[other]? = some (id,q) → Fits view object q → Fits view' object' q)
    (holder : after.holder ≠ none → pc.holder ≠ none ∨ ∀ q, (id,q) ∈ flows → q.holder = none)
    (owed : object' ≠ none → kept view' ∨ view' = none ∨ after.owing ∨ ∃ other q, other ≠ index ∧ flows[other]? = some (id,q) ∧ q.owing)
    (whole : ∀ v, view' = some v → v.status = .quarantined ∨ v.status = .scanning → (∃ size, object' = some size ∧ v.actual = some size) ∨
        (object' = none ∧ (after.swept ∨ (pc.swept = false ∧ ∃ q, (id,q) ∈ flows ∧ q.swept))))
    (safe : ∀ v, view' = some v → v.status = .accepted → ∃ size, object' = some size ∧ v.actual = some size)
    (full : ∀ q size, q = after ∨ (∃ other, other ≠ index ∧ flows[other]? = some (id,q)) → q.vouched = some size → uploading view' →
      object' = some size ∨ (object' = none ∧ (after.swept ∨ (pc.swept = false ∧ ∃ q, (id,q) ∈ flows ∧ q.swept)))) :
    Custody view' object' (flows.set index (id,after)) id := by
  have sweeps : (after.swept ∨ (pc.swept = false ∧ ∃ q, (id,q) ∈ flows ∧ q.swept)) → ∃ q, (id,q) ∈ flows.set index (id,after) ∧ q.swept := by
    intro which
    obtain own | ⟨free,q,mem,sweeps⟩ := which
    · exact ⟨after,moved_here here,own⟩
    obtain same | still := moved_still (id,after) here mem
    · cases same; cases free.symm.trans sweeps
    exact ⟨q,still,sweeps⟩
  refine ⟨fun q mem => ?_,fun i j p q atP atQ holdsP holdsQ => ?_,fun present => ?_,fun v is status => ?_,safe,fun q size mem vouched up => ?_⟩
  · obtain rfl | ⟨other,apart,there⟩ := moved_flow mem
    · exact own
    · exact rest other q apart there (custody.fits q (List.mem_of_getElem? there))
  · obtain ⟨samei,sameP⟩ | ⟨aparti,beforep⟩ := moved_get atP
    · obtain ⟨samej,_⟩ | ⟨apartj,beforeq⟩ := moved_get atQ
      · exact samei.trans samej.symm
      · cases sameP
        obtain held | free := holder holdsP
        · exact absurd (custody.single index j pc q here beforeq held holdsQ) (Ne.symm apartj)
        exact absurd (free q (List.mem_of_getElem? beforeq)) holdsQ
    · obtain ⟨samej,sameQ⟩ | ⟨apartj,beforeq⟩ := moved_get atQ
      · cases sameQ
        obtain held | free := holder holdsQ
        · exact absurd (custody.single i index p pc beforep here holdsP held) aparti
        exact absurd (free p (List.mem_of_getElem? beforep)) holdsP
      · exact custody.single i j p q beforep beforeq holdsP holdsQ
  · obtain keeps | missing | owes | ⟨other,q,apart,there,owes⟩ := owed present
    · exact .inl keeps
    · exact .inr (.inl missing)
    · exact .inr (.inr ⟨after,moved_here here,owes⟩)
    · refine .inr (.inr ⟨q,List.mem_iff_getElem?.mpr ⟨other,?_⟩,owes⟩)
      rw [List.getElem?_set_ne (Ne.symm apart)]
      exact there
  · obtain recorded | ⟨none',which⟩ := whole v is status
    · exact .inl recorded
    · exact .inr ⟨none',sweeps which⟩
  obtain recorded | ⟨none',which⟩ := full q size (moved_flow mem) vouched up
  · exact .inl recorded
  · exact .inr ⟨none',sweeps which⟩

theorem Custody.alone (holder : pc.holder ≠ none) (apart : other ≠ index) (there : flows[other]? = some (id,q)) : q.holder = none := by
  by_contra holds
  exact apart (custody.single other index q pc there here holds holder)

theorem Custody.owing (present : object ≠ none) (light : pc.owing = false) :
    kept view ∨ view = none ∨ ∃ other q, other ≠ index ∧ flows[other]? = some (id,q) ∧ q.owing := by
  obtain keeps | missing | ⟨q,mem,owes⟩ := custody.owed present
  · exact .inl keeps
  · exact .inr (.inl missing)
  obtain ⟨other,there⟩ := List.mem_iff_getElem?.mp mem
  refine .inr (.inr ⟨other,q,fun same => ?_,there,owes⟩)
  subst same
  cases here.symm.trans there
  cases light.symm.trans owes
end

theorem Fits.carry (fits : Fits view object q) (held : ∀ name, q.holder = some name → ¬kept view' ∧ ∀ v, view' = some v → v.status = .uploading → v.claimed = some name)
    (bare : q.bare → object = none → object' = none) (removing : ¬kept view ∧ ¬uploading view → ¬kept view' ∧ ¬uploading view') : Fits view' object' q :=
  ⟨held,fun empty => bare empty (fits.bare empty),fun removes => removing (fits.removing removes)⟩

theorem unheld {P : Nat → Prop} (free : q.holder = none) (name : Nat) (holds : q.holder = some name) : P name := nomatch free.symm.trans holds

theorem kept_open (is : view = some v) (which : v.status = .quarantined ∨ v.status = .scanning) : kept view :=
  ⟨v,is,by obtain is | is := which <;> rw [is] <;> rfl⟩

theorem kept_accepted (is : view = some v) (which : v.status = .accepted) : kept view := ⟨v,is,by rw [which]; rfl⟩

theorem swept_other (free : pc.swept = false) (sweeps : ∃ q, (id,q) ∈ flows ∧ q.swept) :
    after.swept ∨ (pc.swept = false ∧ ∃ q, (id,q) ∈ flows ∧ q.swept) := .inr ⟨free,sweeps⟩

theorem Custody.handled (custody : Custody view object flows id) (here : flows[index]? = some (id,pc))
    (helps : others → ∃ other q, other ≠ index ∧ flows[other]? = some (id,q) ∧ q.owing)
    (handled : Handled others view view' object object' pc after) : Custody view' object' (flows.set index (id,after)) id := by
  have mem : (id,pc) ∈ flows := List.mem_of_getElem? here
  have mine := custody.fits pc mem
  -- Where the flow has the claim, the row is not kept and no other flow has seen or lacks the object.
  have unkept : pc.holder ≠ none → ¬kept view := fun holds => by
    obtain ⟨name,named⟩ := ne_none_iff_exists'.mp holds
    exact (mine.held name named).1
  cases handled with
  | calm same still fits holder owing swept vouched =>
    subst same still
    refine custody.moves here fits (fun _ _ _ _ was => was) (fun holds => ?_) (fun present => ?_) (fun v is status => ?_) custody.safe fun q size which seen up => ?_
    · obtain free | kept' := holder
      · exact absurd free holds
      · exact .inl (kept' ▸ holds)
    · by_cases owes : pc.owing
      · obtain still | empty | missing | helped := owing owes
        · exact .inr (.inr (.inl still))
        · exact absurd empty present
        · exact .inr (.inl missing)
        · exact .inr (.inr (.inr (helps helped)))
      · obtain keeps | missing | other := custody.owing here present (eq_false_iff.mpr owes)
        · exact .inl keeps
        · exact .inr (.inl missing)
        · exact .inr (.inr (.inr other))
    · obtain recorded | ⟨empty,sweeps⟩ := custody.whole v is status
      · exact .inl recorded
      · exact .inr ⟨empty,swept_other (eq_false_iff.mpr fun sweeping => (swept sweeping).2 ⟨v,is,status⟩) sweeps⟩
    have seen' : object' = some size ∨ (object' = none ∧ ∃ q, (id,q) ∈ flows ∧ q.swept) := by
      obtain rfl | ⟨other,_,there⟩ := which
      · obtain nothing | before | found := vouched
        · cases nothing.symm.trans seen
        · exact custody.full pc size mem (before ▸ seen) up
        · exact .inl (found ▸ seen)
      exact custody.full q size (List.mem_of_getElem? there) seen up
    obtain recorded | ⟨empty,sweeps⟩ := seen'
    · exact .inl recorded
    exact .inr ⟨empty,swept_other (eq_false_iff.mpr fun sweeping => (swept sweeping).1 up) sweeps⟩
  | claimed v was before _ becomes still goes _ other =>
    subst still
    have up : uploading view := ⟨v,was,before.1⟩
    have free : ∀ q, (id,q) ∈ flows → q.holder = none := fun q there => by
      cases holds : q.holder with
      | none => rfl
      | some named =>
        have claim := ((custody.fits q there).held named holds).2 v was before.1
        cases before.2.symm.trans claim
    have empty : object' = none := by
      by_contra present
      obtain keeps | missing | ⟨q,there,owes⟩ := custody.owed present
      · exact not_kept_of_uploading up keeps
      · cases was.symm.trans missing
      obtain holds | removes := owing_kind owes
      · exact holds (free q there)
      exact ((custody.fits q there).removing removes).2 up
    have fresh : ¬kept view' := by
      rw [becomes]
      exact not_kept_of_uploading ⟨_,rfl,before.1⟩
    refine custody.moves here ⟨fun named holds => ⟨fresh,fun u is _ => ?_⟩,fun _ => empty,fun removes => ?_⟩ (fun place q apart there fits => ?_) (fun _ => .inr free)
      (fun present => absurd empty present) (fun u is status => ?_) (fun u is status => ?_) fun q size which seen up' => ?_
    · cases becomes.symm.trans is
      rw [goes] at holds
      exact holds
    · cases other.1.symm.trans removes
    · exact fits.carry (unheld (free q (List.mem_of_getElem? there))) (fun _ nothing => nothing) fun removes => absurd up removes.2
    · cases becomes.symm.trans is
      rw [before.1] at status; obtain no | no := status <;> cases no
    · cases becomes.symm.trans is
      cases before.1.symm.trans status
    obtain rfl | ⟨place,_,there⟩ := which
    · cases other.2.symm.trans seen
    · exact absurd (free q (List.mem_of_getElem? there)) (vouched_holder seen)
  | composed same _ makes holder goes owing vouched other =>
    subst same
    have unkept := unkept holder
    refine custody.moves here ⟨fun name holds => mine.held name (goes ▸ holds),fun bare => ?_,fun removes => ?_⟩ (fun place q apart there fits => ?_)
      (fun _ => .inl holder) (fun _ => .inr (.inr (.inl owing))) (fun v is status => absurd (kept_open is status) unkept)
      (fun v is status => absurd (kept_accepted is status) unkept) fun q seen which found up => ?_
    · cases other.1.symm.trans bare
    · cases other.2.symm.trans removes
    · have free := custody.alone here holder apart there
      exact fits.carry (fun name holds => fits.held name holds) (fun bare => absurd free (bare_holder bare)) fun removes => removes
    obtain rfl | ⟨place,apart,there⟩ := which
    · rw [vouched] at found
      exact .inl (makes.trans found)
    exact absurd (custody.alone here holder apart there) (vouched_holder found)
  | unclaimed v was becomes before still holder bare goes =>
    subst still goes
    have empty := mine.bare bare
    have up : uploading view := ⟨v,was,before⟩
    refine custody.moves here ⟨nofun,nofun,nofun⟩ (fun place q apart there fits => ?_) (fun holds => absurd rfl holds) (fun present => absurd empty present)
      (fun u is status => ?_) (fun u is status => ?_) fun q size which seen _ => ?_
    · exact fits.carry (unheld (custody.alone here holder apart there)) (fun _ nothing => nothing) fun removes => absurd up removes.2
    · cases becomes.symm.trans is
      rw [before] at status; obtain no | no := status <;> cases no
    · cases becomes.symm.trans is
      cases before.symm.trans status
    obtain rfl | ⟨place,apart,there⟩ := which
    · cases seen
    exact absurd (custody.alone here holder apart there) (vouched_holder seen)
  | deleted same none' before empty goes other =>
    subst same
    refine custody.moves here ⟨fun name holds => ?_,fun _ => none',fun removes => ?_⟩ (fun place q apart there fits => ?_) (fun holds => ?_)
      (fun present => absurd none' present) (fun v is status => absurd (kept_open is status) before)
      (fun v is status => absurd (kept_accepted is status) before) fun q size which seen up => ?_
    · obtain free | held := goes
      · cases free.symm.trans holds
      · exact mine.held name (held ▸ holds)
    · cases other.1.symm.trans removes
    · exact fits.carry (fun name holds => fits.held name holds) (fun _ _ => none') fun removes => removes
    · obtain free | held := goes
      · exact absurd free holds
      · exact .inl (held ▸ holds)
    obtain removes | holder := empty
    · exact absurd up (mine.removing removes).2
    obtain rfl | ⟨place,apart,there⟩ := which
    · rw [other.2] at seen; cases seen
    exact absurd (custody.alone here holder apart there) (vouched_holder seen)
  | settled v was before size becomes still holder vouched goes =>
    subst still goes
    have up : uploading view := ⟨v,was,before⟩
    have free : pc.swept = false := by
      cases pc with
      | probe | settle => rfl
      | _ => cases vouched
    refine custody.moves here ⟨nofun,nofun,nofun⟩ (fun place q apart there fits => ?_) (fun holds => absurd rfl holds) (fun _ => .inl ⟨_,becomes,rfl⟩)
      (fun u is _ => ?_) (fun u is status => ?_) fun q seen _ _ up' => ?_
    · exact fits.carry (unheld (custody.alone here holder apart there)) (fun _ nothing => nothing) fun removes => absurd up removes.2
    · cases becomes.symm.trans is
      obtain there | ⟨empty,sweeps⟩ := custody.full pc size mem vouched up
      · exact .inl ⟨size,there,rfl⟩
      exact .inr ⟨empty,swept_other free sweeps⟩
    · cases becomes.symm.trans is
      cases status
    obtain ⟨u,is,status⟩ := up'
    cases becomes.symm.trans is
    cases status
  | killed was gone still goes other owing =>
    subst still
    obtain ⟨u,is,dead⟩ := gone
    have unkept' : ¬kept view' := fun ⟨x,is',keeps⟩ => by
      cases is.symm.trans is'
      cases status : u.status <;> rw [status] at dead keeps <;> first | cases dead; done | cases keeps
    have down : ¬uploading view' := fun ⟨x,is',status⟩ => by
      cases is.symm.trans is'
      rw [status] at dead; cases dead
    refine custody.moves here ⟨fun name holds => ?_,fun bare => ?_,fun _ => ⟨unkept',down⟩⟩ (fun place q apart there fits => ?_) (fun holds => absurd goes holds)
      (fun present => ?_) (fun v there status => absurd (kept_open there status) unkept') (fun v there status => absurd (kept_accepted there status) unkept')
      fun _ _ _ _ up => absurd up down
    · cases goes.symm.trans holds
    · cases other.1.symm.trans bare
    · exact fits.carry (fun name _ => ⟨unkept',fun v there status => absurd ⟨v,there,status⟩ down⟩) (fun _ nothing => nothing) fun _ => ⟨unkept',down⟩
    by_cases which : kept view ∨ pc.owing
    · obtain still | empty := owing which
      · exact .inr (.inr (.inl still))
      · exact absurd empty present
    obtain keeps | missing | helper := custody.owing here present (eq_false_iff.mpr fun owes => which (.inr owes))
    · exact absurd (.inl keeps) which
    · exact absurd missing was
    exact .inr (.inr (.inr helper))
  | swept same none' before goes =>
    subst same goes
    refine custody.moves here ⟨nofun,nofun,nofun⟩ (fun place q apart there fits => ?_) (fun holds => absurd rfl holds) (fun present => absurd none' present)
      (fun _ _ _ => .inr ⟨none',.inl rfl⟩) (fun v is status => absurd status (before v is)) fun _ _ _ _ _ => .inr ⟨none',.inl rfl⟩
    exact fits.carry (fun name holds => fits.held name holds) (fun _ _ => none') fun removes => removes
  | accepted v was before becomes still there goes =>
    subst still goes
    have keeps := kept_open was before
    refine custody.moves here ⟨nofun,nofun,nofun⟩ (fun place q apart at' fits => ?_) (fun holds => absurd rfl holds) (fun _ => .inl ⟨_,becomes,rfl⟩)
      (fun u is status => ?_) (fun u is _ => ?_) fun _ _ _ _ up => ?_
    · exact fits.carry (fun name holds => absurd keeps (fits.held name holds).1) (fun _ nothing => nothing) fun removes => absurd keeps removes.1
    · cases becomes.symm.trans is
      obtain no | no := status <;> cases no
    · cases becomes.symm.trans is
      obtain recorded | ⟨empty,_⟩ := custody.whole v was before
      · exact recorded
      exact absurd empty there
    obtain ⟨u,is,status⟩ := up
    cases becomes.symm.trans is
    cases status
  | dropped gone _ still goes =>
    subst still goes
    have missing : ∀ {v : View}, view' = some v → False := fun is => by cases gone.symm.trans is
    refine custody.moves here ⟨nofun,nofun,nofun⟩ (fun place q apart there fits => ?_) (fun holds => absurd rfl holds) (fun _ => .inr (.inl gone))
      (fun v is _ => (missing is).elim) (fun v is _ => (missing is).elim) fun _ _ _ _ ⟨v,is,_⟩ => (missing is).elim
    exact fits.carry (fun name _ => ⟨fun ⟨v,is,_⟩ => missing is,fun v is => (missing is).elim⟩) (fun _ nothing => nothing)
      fun _ => ⟨fun ⟨v,is,_⟩ => missing is,fun ⟨v,is,_⟩ => missing is⟩
end

variable {draft : List Attachment} {c c' : Cell} {pc after goes : Pc} {others : Bool} {row : Attachment} {run : Completion}

theorem matching_some (found : c.matching condition) : ∃ row, c.row = some row ∧ condition row := by
  cases is : c.row with
  | none => rw [Cell.matching,is] at found; cases found
  | some row => rw [Cell.matching,is] at found; exact ⟨row,rfl,found⟩

theorem matching_false (missing : ¬c.matching condition) (is : c.row = some row) : condition row = false := by
  rw [Cell.matching,is] at missing
  exact eq_false_iff.mpr missing

theorem view_some (is : c.row = some row) : c.view = some row.view := by
  rw [Cell.view,is]; rfl

theorem view_row (is : c.view = some v) : ∃ row, c.row = some row ∧ row.view = v := map_eq_some_iff.mp is

theorem amend_view (is : c.row = some row) (change : Attachment → Attachment) : (c.amend change).view = some (change row).view := by
  rw [Cell.view,Cell.amend,is]; rfl

def Pc.light : Pc → Bool
  | .create _ | .initialise _ | .lost | .undoAbort | .undoDelete | .completeRead _ _ | .parts _ | .claim _ | .abortRead _ | .abortFirst _
  | .abortMark _ _ | .abortCheck _ _ | .scanRead _ | .scanHead _ | .scanMark _ | .scanCheck _ | .cleanRead | .cleanAbort | .cleanDelete | .halted => true
  | _ => false

theorem light_plain (light : pc.light) : pc.holder = none ∧ pc.bare = false ∧ pc.owing = false ∧ pc.removing = false ∧ pc.swept = false ∧
    pc.vouched = none := by
  cases pc <;> first | exact ⟨rfl,rfl,rfl,rfl,rfl,rfl⟩ | cases light

theorem light_fits (light : pc.light) : Fits view object pc := by
  obtain ⟨holder,bare,_,removing,_⟩ := light_plain light
  refine ⟨fun name holds => ?_,fun empty => ?_,fun removes => ?_⟩
  · cases holder.symm.trans holds
  · cases bare.symm.trans empty
  cases removing.symm.trans removes

section
variable (same : c'.view = c.view) (still : c'.object = c.object) (from' : pc.light)
include same still from'

theorem light_calm (to' : after.light) : Handled others c.view c'.view c.object c'.object pc after := by
  obtain ⟨_,_,owing,_,swept,_⟩ := light_plain from'
  obtain ⟨holder,_,_,_,_,vouched⟩ := light_plain to'
  refine .calm same still (light_fits to') (.inl holder) (fun owes => ?_) (fun sweeps => ?_) (.inl vouched)
  · cases owing.symm.trans owes
  cases swept.symm.trans sweeps

theorem remove_calm (gone : ¬kept c.view ∧ ¬uploading c.view)
    (to' : after = .remove ∨ after = .abortBucket) : Handled others c.view c'.view c.object c'.object pc after := by
  obtain ⟨_,_,owing,_,swept,_⟩ := light_plain from'
  have owes : pc.owing → after.owing ∨ c.object = none ∨ c.view = none ∨ others := fun owes => by cases owing.symm.trans owes
  have sweeps : pc.swept → ¬uploading c.view ∧ ¬unscanned c.view := fun sweeps => by cases swept.symm.trans sweeps
  obtain rfl | rfl := to'
  · exact .calm same still ⟨nofun,nofun,fun _ => gone⟩ (.inl rfl) owes sweeps (.inl rfl)
  exact .calm same still ⟨nofun,nofun,fun _ => gone⟩ (.inl rfl) owes sweeps (.inl rfl)
end

theorem done_handled (ran : done effect goes reply = some (c',after))
    (good : reply = .ok → Handled others view effect.view object effect.object pc goes) : Handled others view c'.view object c'.object pc after := by
  cases reply with
  | ok => cases ran; exact good rfl
  | _ => cases ran

theorem asked_handled (ran : asked going reply = some (c',after))
    (good : ∀ yes, reply = .flag yes → Handled others view (going yes).1.view object (going yes).1.object pc (going yes).2) :
    Handled others view c'.view object c'.object pc after := by
  cases reply with
  | flag yes =>
    have reached := good yes rfl
    rw [show going yes = (c',after) from some.inj ran] at reached
    exact reached
  | _ => cases ran

theorem aborting_handled (ran : aborting c goes fails reply = some (c',after))
    (good : Handled others c.view c.view c.object c.object pc goes) (bad : reply = .failed → Handled others c.view c.view c.object c.object pc fails) :
    Handled others c.view c'.view c.object c'.object pc after := by
  cases reply with
  | ok =>
    obtain ⟨_,same⟩ := ite_none_right_eq_some.mp ran
    cases same
    exact good
  | failed =>
    obtain ⟨_,same⟩ := ite_none_left_eq_some.mp ran
    cases same
    exact bad rfl
  | composed | flag => cases ran

-- A row that is neither kept, nor uploading, nor removed is not there.
theorem unlisted (gone : ¬kept c.view ∧ ¬uploading c.view) (other : c.matching (·.status.removed) = false) : c.view = none := by
  cases is : c.row with
  | none => rw [Cell.view,is]; rfl
  | some row =>
    have status : row.status.removed = false := by rw [Cell.matching,is] at other; exact other
    cases which : row.status with
    | uploading => exact absurd ⟨row.view,view_some is,which⟩ gone.2
    | rejected | aborted | expired => rw [which] at status; cases status
    | _ => exact absurd ⟨row.view,view_some is,by rw [show row.view.status = row.status from rfl,which]; rfl⟩ gone.1

theorem removed_status (is : c.view = some v) (gone : v.status.removed) : ¬kept c.view ∧ ¬uploading c.view := by
  constructor
  · intro ⟨u,is',keeps⟩
    cases is.symm.trans is'
    cases status : v.status <;> rw [status] at gone keeps <;> first | (cases gone; done) | cases keeps
  intro ⟨u,is',up⟩
  cases is.symm.trans is'
  rw [up] at gone; cases gone

theorem Fits.unclaimed (fits : Fits c.view c.object pc) (run : Completion) (named : pc.holder = some run.name) (lost : ¬c.matching run.mine) :
    ¬kept c.view ∧ ¬uploading c.view := by
  refine ⟨(fits.held _ named).1,fun ⟨v,is,up⟩ => ?_⟩
  have claim := (fits.held _ named).2 v is up
  obtain ⟨row,found,rfl⟩ := view_row is
  have no := matching_false lost found
  have status : row.status = .uploading := up
  have claimed : row.claimed = some run.name := claim
  simp [Completion.mine,status,claimed] at no

theorem mine_row (found : c.matching run.mine) : ∃ row, c.row = some row ∧ row.status = .uploading ∧ row.claimed = some run.name := by
  obtain ⟨row,is,mine⟩ := matching_some found
  simp only [Completion.mine,Bool.and_eq_true,decide_eq_true_eq] at mine
  exact ⟨row,is,mine.1,mine.2⟩

theorem abortNext_cases (read : Attachment) (native : Bool) : abortNext read native = .remove ∨ abortNext read native = .abortBucket := by
  unfold abortNext
  split
  · exact .inr rfl
  exact .inl rfl

theorem call_handled (settled : pc.early = false) (fits : Fits c.view c.object pc) (spare : pc.spared c others reply)
    (ran : pc.call draft c reply = some (c',after)) : Handled others c.view c'.view c.object c'.object pc after := by
  cases pc with
  | initRead | insert => cases settled
  | create => exact done_handled ran fun _ => light_calm rfl rfl rfl rfl
  | initialise input =>
    refine asked_handled ran fun allowed _ => ?_
    split
    · rename_i pending
      obtain ⟨_,is,_⟩ := matching_some (and_eq_true_iff.mp pending).2
      exact light_calm ((amend_view is _).trans (view_some is).symm) rfl rfl rfl
    exact light_calm rfl rfl rfl rfl
  | undoDelete =>
    refine done_handled ran fun _ => ?_
    split
    · rename_i found
      obtain ⟨row,is,up⟩ := matching_some found
      exact .dropped rfl ⟨row.view,view_some is,of_decide_eq_true up⟩ rfl rfl ⟨rfl,rfl⟩
    exact light_calm rfl rfl rfl rfl
  | completeRead =>
    refine done_handled ran fun _ => light_calm rfl rfl rfl ?_
    split
    · split <;> rfl
    rfl
  | parts => exact asked_handled ran fun complete _ => light_calm rfl rfl rfl (by dsimp only; split <;> rfl)
  | claim run =>
    refine asked_handled ran fun allowed _ => ?_
    split
    · rename_i free
      obtain ⟨row,is,unclaimed⟩ := matching_some (and_eq_true_iff.mp free).2
      obtain ⟨up,none'⟩ := and_eq_true_iff.mp unclaimed
      exact .claimed row.view (view_some is) ⟨of_decide_eq_true up,isNone_iff_eq_none.mp none'⟩ run.name (amend_view is _) rfl rfl rfl ⟨rfl,rfl⟩ ⟨rfl,rfl⟩
    exact light_calm rfl rfl rfl rfl
  | compose run =>
    simp only [Pc.call] at ran
    split at ran
    · rename_i size
      obtain ⟨_,same⟩ := ite_none_right_eq_some.mp ran
      cases same
      exact .composed rfl size rfl nofun rfl rfl rfl ⟨rfl,rfl⟩ rfl
    · obtain ⟨_,same⟩ := ite_none_left_eq_some.mp ran
      cases same
      exact .calm rfl rfl ⟨fits.held,fun _ => fits.bare rfl,nofun⟩ (.inr rfl) nofun nofun (.inl rfl)
    cases ran
  | composeHead =>
    refine done_handled ran fun _ => ?_
    rw [fits.bare rfl]
    exact .calm rfl rfl ⟨fits.held,fun _ => rfl,nofun⟩ (.inr rfl) nofun nofun (.inl rfl)
  | unclaim run =>
    refine asked_handled ran fun allowed _ => ?_
    split
    · rename_i mine
      obtain ⟨row,is,up,_⟩ := mine_row (and_eq_true_iff.mp mine).2
      exact .unclaimed row.view (view_some is) (amend_view is _) up rfl nofun rfl rfl
    split
    · exact .calm rfl rfl ⟨fits.held,fun _ => fits.bare rfl,nofun⟩ (.inr rfl) nofun nofun (.inl rfl)
    exact .calm rfl rfl (light_fits rfl) (.inl rfl) nofun nofun (.inl rfl)
  | release run =>
    refine asked_handled ran fun same _ => ?_
    split
    · rename_i mine
      obtain ⟨row,is,up,_⟩ := mine_row (and_eq_true_iff.mp mine).2
      exact .unclaimed row.view (view_some is) (amend_view is _) up rfl nofun rfl rfl
    exact .calm rfl rfl (light_fits rfl) (.inl rfl) nofun nofun (.inl rfl)
  | probe =>
    refine asked_handled ran fun valid _ => ?_
    split
    · exact .calm rfl rfl ⟨fits.held,nofun,nofun⟩ (.inr rfl) (fun _ => .inl rfl) nofun (.inr (.inl rfl))
    exact .calm rfl rfl ⟨fits.held,nofun,nofun⟩ (.inr rfl) (fun _ => .inl rfl) nofun (.inl rfl)
  | settle run size =>
    refine asked_handled ran fun allowed is => ?_
    subst is
    split
    · rename_i mine
      obtain ⟨row,is,up,_⟩ := mine_row (and_eq_true_iff.mp mine).2
      exact .settled row.view (view_some is) up size (amend_view is _) rfl nofun rfl rfl
    rename_i lost
    split
    · exact .calm rfl rfl ⟨fits.held,nofun,nofun⟩ (.inr rfl) (fun _ => .inl rfl) nofun (.inl rfl)
    rename_i portal
    have portal' : run.native = false := eq_false_iff.mpr portal
    have lost' : ¬c.matching run.mine := by simpa [portal'] using lost
    refine .calm rfl rfl (light_fits rfl) (.inl rfl) (fun _ => ?_) nofun (.inl rfl)
    have gone := fits.unclaimed run rfl lost'
    have spare' : (run.native || c.matching run.mine || !c.matching (·.status.removed) || c.object.isNone || others) := spare
    simp only [portal',eq_false_iff.mpr lost',Bool.false_or,Bool.or_eq_true,Bool.not_eq_true',isNone_iff_eq_none] at spare'
    obtain (kept' | empty) | helped := spare'
    · exact .inr (.inr (.inl (unlisted gone kept')))
    · exact .inr (.inl empty)
    exact .inr (.inr (.inr helped))
  | refuse run size =>
    refine asked_handled ran fun allowed _ => ?_
    split
    · rename_i mine
      obtain ⟨_,is,_,_⟩ := mine_row (and_eq_true_iff.mp mine).2
      exact .killed (by rw [view_some is]; nofun) ⟨_,amend_view is _,rfl⟩ rfl rfl ⟨rfl,rfl⟩ fun _ => .inl rfl
    rename_i lost
    split
    · exact .calm rfl rfl ⟨fits.held,nofun,nofun⟩ (.inr rfl) (fun _ => .inl rfl) nofun (.inl rfl)
    rename_i portal
    have lost' : ¬c.matching run.mine := by simpa [eq_false_iff.mpr portal] using lost
    exact .calm rfl rfl ⟨nofun,nofun,fun _ => fits.unclaimed run rfl lost'⟩ (.inl rfl) (fun _ => .inl rfl) nofun (.inl rfl)
  | revoke => exact done_handled ran fun _ => .deleted rfl rfl (fits.held _ rfl).1 (.inr nofun) (.inr rfl) ⟨rfl,rfl⟩ rfl
  | abortRead native =>
    refine done_handled ran fun _ => ?_
    split
    · rename_i row is
      split
      · rename_i aborted
        exact remove_calm rfl rfl rfl (removed_status (view_some is) (by rw [show row.view.status = row.status from rfl,aborted]; rfl)) (.inl rfl)
      split
      · exact light_calm rfl rfl rfl rfl
      exact light_calm rfl rfl rfl rfl
    exact light_calm rfl rfl rfl rfl
  | abortMark read native =>
    refine asked_handled ran fun allowed _ => ?_
    split
    · rename_i live
      obtain ⟨row,is,_⟩ := matching_some (and_eq_true_iff.mp live).2
      have effect := amend_view is fun row => { row with status := .aborted }
      obtain goes | goes := abortNext_cases read native
      · rw [goes]; exact .killed (by rw [view_some is]; nofun) ⟨_,effect,rfl⟩ rfl rfl ⟨rfl,rfl⟩ fun _ => .inl rfl
      rw [goes]; exact .killed (by rw [view_some is]; nofun) ⟨_,effect,rfl⟩ rfl rfl ⟨rfl,rfl⟩ fun _ => .inl rfl
    exact light_calm rfl rfl rfl rfl
  | abortCheck read native =>
    refine done_handled ran fun _ => ?_
    split
    · rename_i aborted
      obtain ⟨row,is,status⟩ := matching_some aborted
      exact remove_calm rfl rfl rfl (removed_status (view_some is) (by rw [show row.view.status = row.status from rfl,of_decide_eq_true status]; rfl))
        (abortNext_cases read native)
    exact light_calm rfl rfl rfl rfl
  | abortBucket =>
    refine aborting_handled ran ?_ fun failed => ?_
    · exact .calm rfl rfl ⟨nofun,nofun,fun _ => fits.removing rfl⟩ (.inl rfl) (fun _ => .inl rfl) nofun (.inl rfl)
    subst failed
    refine .calm rfl rfl (light_fits rfl) (.inl rfl) (fun _ => ?_) nofun (.inl rfl)
    have spare' : (!c.matching (·.status.removed) || c.object.isNone || others) := spare
    have gone := fits.removing rfl
    simp only [Bool.or_eq_true,Bool.not_eq_true',isNone_iff_eq_none] at spare'
    obtain (kept' | empty) | helped := spare'
    · exact .inr (.inr (.inl (unlisted gone kept')))
    · exact .inr (.inl empty)
    exact .inr (.inr (.inr helped))
  | remove => exact done_handled ran fun _ => .deleted rfl rfl (fits.removing rfl).1 (.inl rfl) (.inl rfl) ⟨rfl,rfl⟩ rfl
  | scanRead receipt =>
    refine done_handled ran fun _ => ?_
    split
    · rename_i row is
      split
      · exact light_calm rfl rfl rfl rfl
      split
      · rename_i rejected
        exact remove_calm rfl rfl rfl (removed_status (view_some is) (by
          rw [show row.view.status = row.status from rfl,of_decide_eq_true (and_eq_true_iff.mp rejected).1]; rfl)) (.inl rfl)
      exact light_calm rfl rfl rfl rfl
    exact light_calm rfl rfl rfl rfl
  | scanHead => exact done_handled ran fun _ => light_calm rfl rfl rfl (by split <;> rfl)
  | scanMark receipt =>
    refine done_handled ran fun ok => ?_
    subst ok
    by_cases found : c.matching (fun row => row.status = .quarantined || row.status = .scanning)
    · rw [if_pos found,if_pos found]
      obtain ⟨row,is,which⟩ := matching_some found
      have open' : row.status = .quarantined ∨ row.status = .scanning := by simpa using which
      have effect := amend_view is fun row => { row with status := if receipt.clean then .accepted else .rejected, receipt := some receipt }
      cases clean : receipt.clean with
      | true =>
        rw [clean] at effect
        have spare' : (!receipt.clean || c.object.isSome || !c.matching (fun row => row.status = .quarantined || row.status = .scanning)) := spare
        rw [clean,found] at spare'
        have there : c.object ≠ none := by
          intro empty
          rw [empty] at spare'; cases spare'
        exact .accepted row.view (view_some is) open' effect rfl there rfl ⟨rfl,rfl,rfl⟩
      | false =>
        rw [clean] at effect
        exact .killed (by rw [view_some is]; nofun) ⟨_,effect,rfl⟩ rfl rfl ⟨rfl,rfl⟩ fun _ => .inl rfl
    rw [if_neg found,if_neg found]
    exact light_calm rfl rfl rfl rfl
  | scanCheck receipt =>
    refine done_handled ran fun _ => ?_
    split
    · rename_i rejected
      obtain ⟨row,is,which⟩ := matching_some rejected
      exact remove_calm rfl rfl rfl (removed_status (view_some is) (by
        rw [show row.view.status = row.status from rfl,of_decide_eq_true (and_eq_true_iff.mp which).1]; rfl)) (.inl rfl)
    exact light_calm rfl rfl rfl rfl
  | cleanRead =>
    refine asked_handled ran fun due _ => light_calm rfl rfl rfl ?_
    split
    · split
      · split <;> rfl
      · rfl
    rfl
  | cleanDelete =>
    refine done_handled ran fun ok => ?_
    subst ok
    refine .swept rfl rfl (fun v is accepted => ?_) rfl rfl
    obtain ⟨row,found,rfl⟩ := view_row is
    have spare' : (!c.matching (·.status = .accepted)) := spare
    rw [Cell.matching,found] at spare'
    have status : row.status = .accepted := accepted
    simp [status] at spare'
  | cleanMark =>
    refine done_handled ran fun ok => ?_
    subst ok
    split
    · rename_i found
      obtain ⟨row,is,which⟩ := matching_some found
      refine .killed (by rw [view_some is]; nofun) ⟨_,amend_view is _,rfl⟩ rfl rfl ⟨rfl,rfl⟩ fun held => .inr ?_
      obtain ⟨v,is',keeps⟩ | owes := held
      · cases (view_some is).symm.trans is'
        have spare' : (c.object.isNone || !c.matching (fun row => row.status = .quarantined || row.status = .scanning)) := spare
        rw [Cell.matching,is] at spare'
        have keeps' : row.status.kept := keeps
        cases status : row.status with
        | quarantined | scanning => simpa [status] using spare'
        | accepted => rw [status] at which; cases which
        | _ => rw [status] at keeps'; cases keeps'
      cases owes
    rename_i missing
    refine .calm rfl rfl (light_fits rfl) (.inl rfl) nofun (fun _ => ⟨fun ⟨v,is,up⟩ => ?_,fun ⟨v,is,open'⟩ => ?_⟩) (.inl rfl)
    · obtain ⟨row,found,rfl⟩ := view_row is
      have status : row.status = .uploading := up
      have no := matching_false missing found
      rw [status] at no; cases no
    obtain ⟨row,found,rfl⟩ := view_row is
    have no := matching_false missing found
    obtain status | status : row.status = .quarantined ∨ row.status = .scanning := open'
    · rw [status] at no; cases no
    rw [status] at no; cases no
  | halted => cases ran
  | _ => exact aborting_handled ran (light_calm rfl rfl rfl rfl) fun _ => light_calm rfl rfl rfl rfl
end LedgeTopOps.RequestAttachments
