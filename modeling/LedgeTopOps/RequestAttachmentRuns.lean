import LedgeTopOps.RequestAttachmentCustody

namespace LedgeTopOps.RequestAttachments
open List KeyedRows StepRuns FlowLists Bool Option

section
variable {draft : List Attachment} {c c' : Cell} {pc after goes : Pc}

def Shrinks (c c' : Cell) : Prop := ∀ later, c'.row = some later → ∃ row, c.row = some row ∧ later.size = row.size ∧
  (row.status.removed = true → later.status.removed = true)

theorem Shrinks.same (same : c'.row = c.row) : Shrinks c c' := fun later is => ⟨later,same ▸ is,rfl,fun gone => gone⟩

theorem Shrinks.amend (size : ∀ row, (change row).size = row.size)
    (live : ∀ row, c.row = some row → row.status.removed → (change row).status.removed) : Shrinks c (c.amend change) := by
  intro _ is
  obtain ⟨row,found,same⟩ := map_eq_some_iff.mp is
  subst same
  exact ⟨row,found,size row,live row found⟩

theorem done_shrinks (ran : done effect goes reply = some (c',after)) (good : Shrinks c effect) : Shrinks c c' := by
  cases reply with
  | ok => cases ran; exact good
  | _ => cases ran

theorem asked_shrinks (ran : asked going reply = some (c',after)) (good : ∀ yes, Shrinks c (going yes).1) : Shrinks c c' := by
  cases reply with
  | flag yes =>
    have reached := good yes
    rw [show going yes = (c',after) from some.inj ran] at reached
    exact reached
  | _ => cases ran

theorem aborting_shrinks (ran : aborting c goes fails reply = some (c',after)) : Shrinks c c' := by
  cases reply with
  | ok =>
    obtain ⟨_,same⟩ := ite_none_right_eq_some.mp ran
    cases same
    exact .same rfl
  | failed =>
    obtain ⟨_,same⟩ := ite_none_left_eq_some.mp ran
    cases same
    exact .same rfl
  | composed | flag => cases ran

theorem live_removed (found : c.matching condition) (live : ∀ row, condition row → row.status.removed = false)
    (change : Attachment → Attachment) : ∀ row, c.row = some row → row.status.removed → (change row).status.removed := by
  intro row is gone
  obtain ⟨_,is',meets⟩ := matching_some found
  cases is.symm.trans is'
  rw [live row meets] at gone; cases gone

theorem mine_live (run : Completion) (row : Attachment) (mine : run.mine row) : row.status.removed = false := by
  have up : row.status = .uploading := of_decide_eq_true (and_eq_true_iff.mp mine).1
  rw [up]; rfl

theorem call_shrinks (settled : pc.early = false) (ran : pc.call draft c reply = some (c',after)) : Shrinks c c' := by
  have same : Shrinks c c := .same rfl
  cases pc with
  | initRead | insert => cases settled
  | halted => cases ran
  | lost | undoAbort | abortFirst | abortBucket | cleanAbort => exact aborting_shrinks ran
  | parts | probe | cleanRead => exact asked_shrinks ran fun _ => same
  | initialise | claim | release | unclaim =>
    refine asked_shrinks ran fun allowed => ?_
    split
    · exact .amend (fun _ => rfl) fun _ _ gone => gone
    exact same
  | undoDelete =>
    refine done_shrinks ran ?_
    split
    · intro _ is
      cases is
    exact same
  | compose =>
    simp only [Pc.call] at ran
    split at ran
    · obtain ⟨_,is⟩ := ite_none_right_eq_some.mp ran
      cases is
      exact .same rfl
    · obtain ⟨_,is⟩ := ite_none_left_eq_some.mp ran
      cases is
      exact same
    cases ran
  | settle run size =>
    refine asked_shrinks ran fun allowed => ?_
    split
    · rename_i mine
      exact .amend (fun _ => rfl) (live_removed (and_eq_true_iff.mp mine).2 (mine_live run) _)
    exact same
  | refuse | abortMark =>
    refine asked_shrinks ran fun allowed => ?_
    split
    · exact .amend (fun _ => rfl) fun _ _ _ => rfl
    exact same
  | scanMark receipt =>
    refine done_shrinks ran ?_
    split
    · rename_i found
      refine .amend (fun _ => rfl) (live_removed found (fun row open' => ?_) _)
      have which : row.status = .quarantined ∨ row.status = .scanning := by simpa using open'
      obtain status | status := which
      · rw [status]; rfl
      rw [status]; rfl
    exact same
  | cleanMark =>
    refine done_shrinks ran ?_
    split
    · exact .amend (fun _ => rfl) fun _ _ _ => rfl
    exact same
  | _ =>
    exact done_shrinks ran (.same rfl)
end

-- The draft: every attachment in custody, the limits kept, and an init the only flow of
-- an attachment that has not been inserted.
structure Sound (w : World) : Prop where
  early : ∀ (index id : Nat) (pc : Pc), w.flows[index]? = some (id,pc) → pc.early = true → id = index ∧ id ∉ w.ids
  known : ∀ (id : Nat) (pc : Pc), (id,pc) ∈ w.flows → pc.early = false → pc = .halted ∨ id ∈ w.ids
  inside : ∀ id ∈ w.ids, id < w.flows.length
  empty : ∀ id, id ∉ w.ids → (w.cells id).row = none ∧ (w.cells id).object = none
  custody : ∀ id ∈ w.ids, Custody (w.cells id).view (w.cells id).object w.flows id
  files : total Attachment.files w.draft ≤ maxFiles
  bytes : total Attachment.bytes w.draft ≤ maxTotalBytes

section
variable {w : World} {id index : Nat} {pc after : Pc} {object : Option Nat} {flows : List (Nat × Pc)}

theorem Custody.frame (custody : Custody view object flows id) (same : ∀ (i : Nat) (q : Pc), flows'[i]? = some (id,q) ↔ flows[i]? = some (id,q)) :
    Custody view object flows' id := by
  have members : ∀ q, (id,q) ∈ flows' ↔ (id,q) ∈ flows := fun q => by
    rw [List.mem_iff_getElem?,List.mem_iff_getElem?]
    exact exists_congr fun i => same i q
  refine ⟨fun q mem => custody.fits q ((members q).mp mem),fun i j p q atP atQ => custody.single i j p q ((same i p).mp atP) ((same j q).mp atQ),
    fun present => ?_,fun x is status => ?_,custody.safe,fun q size mem seen up => ?_⟩
  · simpa only [members] using custody.owed present
  · simpa only [members] using custody.whole x is status
  simpa only [members] using custody.full q size ((members q).mp mem) seen up

theorem set_frame (here : flows[index]? = some (id,pc)) (apart : other ≠ id) (i : Nat) (q : Pc) :
    (flows.set index (id,after))[i]? = some (other,q) ↔ flows[i]? = some (other,q) := by
  rw [List.getElem?_set]
  split
  · rename_i same
    subst same
    split
    · constructor
      · intro is
        cases is
        exact absurd rfl apart
      · intro is
        cases here.symm.trans is
        exact absurd rfl apart
    rename_i outside
    exact absurd (List.getElem?_eq_some_iff.mp here).1 outside
  rfl

theorem append_frame (apart : other ≠ id) (i : Nat) (q : Pc) : (flows++[(id,pc)])[i]? = some (other,q) ↔ flows[i]? = some (other,q) := by
  rw [List.getElem?_append]
  split
  · rfl
  rename_i outside
  constructor
  · intro is
    cases mem_singleton.mp (List.mem_of_getElem? is)
    exact absurd rfl apart
  intro is
  exact absurd (List.getElem?_eq_some_iff.mp is).1 outside

theorem Custody.begin (custody : Custody view object flows id) (light : pc.light) : Custody view object (flows++[(id,pc)]) id := by
  obtain ⟨holder,_,_,_,_,vouched⟩ := light_plain light
  have older : ∀ {q : Pc}, (id,q) ∈ flows++[(id,pc)] → (id,q) ∈ flows ∨ q = pc := fun mem => by
    obtain old | new := mem_append.mp mem
    · exact .inl old
    cases mem_singleton.mp new; exact .inr rfl
  have still : ∀ {P : Pc → Prop}, (∃ q, (id,q) ∈ flows ∧ P q) → ∃ q, (id,q) ∈ flows++[(id,pc)] ∧ P q :=
    fun ⟨q,mem,holds⟩ => ⟨q,mem_append_left _ mem,holds⟩
  have before : ∀ {i : Nat} {q : Pc}, (flows++[(id,pc)])[i]? = some (id,q) → q.holder ≠ none → flows[i]? = some (id,q) := fun at' holds => by
    rw [List.getElem?_append] at at'
    split at at'
    · exact at'
    cases mem_singleton.mp (List.mem_of_getElem? at')
    exact absurd holder holds
  refine ⟨fun q mem => ?_,fun i j p q atP atQ holdsP holdsQ => ?_,fun present => ?_,fun x is status => ?_,custody.safe,fun q size mem seen up => ?_⟩
  · obtain old | rfl := older mem
    · exact custody.fits q old
    · exact light_fits light
  · exact custody.single i j p q (before atP holdsP) (before atQ holdsQ) holdsP holdsQ
  · obtain keeps | missing | owes := custody.owed present
    · exact .inl keeps
    · exact .inr (.inl missing)
    · exact .inr (.inr (still owes))
  · obtain recorded | ⟨none',sweeps⟩ := custody.whole x is status
    · exact .inl recorded
    · exact .inr ⟨none',still sweeps⟩
  obtain old | rfl := older mem
  · obtain recorded | ⟨none',sweeps⟩ := custody.full q size old seen up
    · exact .inl recorded
    · exact .inr ⟨none',still sweeps⟩
  cases vouched.symm.trans seen

theorem Sound.begin (sound : Sound w) (light : pc.light) (late : pc.early = false) (inserted : id ∈ w.ids) : Sound (w.begin id pc) := by
  refine ⟨fun i other q at' early => ?_,fun other q mem early => ?_,fun other mem => ?_,sound.empty,fun other mem => ?_,sound.files,sound.bytes⟩
  · have at'' : (w.flows++[(id,pc)])[i]? = some (other,q) := at'
    rw [List.getElem?_append] at at''
    split at at''
    · exact sound.early i other q at'' early
    cases mem_singleton.mp (List.mem_of_getElem? at'')
    rw [late] at early; cases early
  · obtain old | new := mem_append.mp mem
    · exact sound.known other q old early
    · cases mem_singleton.mp new
      exact .inr inserted
  · have less := sound.inside other mem
    show other < (w.flows++[(id,pc)]).length
    rw [length_append]
    omega
  by_cases same : other = id
  · subst same
    exact (sound.custody other mem).begin light
  exact (sound.custody other mem).frame (append_frame same)

theorem Sound.init (sound : Sound w) (input : Input) : Sound (w.begin w.flows.length (.initRead input)) := by
  have fresh : w.flows.length ∉ w.ids := fun mem => Nat.lt_irrefl _ (sound.inside _ mem)
  refine ⟨fun i other q at' early => ?_,fun other q mem early => ?_,fun other mem => ?_,sound.empty,fun other mem => ?_,sound.files,sound.bytes⟩
  · have at'' : (w.flows++[(w.flows.length,Pc.initRead input)])[i]? = some (other,q) := at'
    rw [List.getElem?_append] at at''
    split at at''
    · exact sound.early i other q at'' early
    rename_i outside
    obtain ⟨less,_⟩ := List.getElem?_eq_some_iff.mp at''
    cases mem_singleton.mp (List.mem_of_getElem? at'')
    refine ⟨?_,fresh⟩
    simp only [length_cons,length_nil] at less
    omega
  · obtain old | new := mem_append.mp mem
    · exact sound.known other q old early
    · cases mem_singleton.mp new
      cases early
  · have less := sound.inside other mem
    show other < (w.flows++[_]).length
    rw [length_append]
    omega
  refine (sound.custody other mem).frame (append_frame fun same => ?_)
  subst same
  exact fresh mem

def Cell.amount (amount : Attachment → Int) (c : Cell) : Int := (c.row.map amount).getD 0

theorem draft_total (amount : Attachment → Int) (w : World) : total amount w.draft = total (fun id => (w.cells id).amount amount) w.ids :=
  total_filterMap amount _ _

theorem shrinks_files (shrinks : Shrinks c c') : c'.amount Attachment.files ≤ c.amount Attachment.files := by
  unfold Cell.amount
  cases is : c'.row with
  | none =>
    cases c.row with
    | none => exact Int.le_refl 0
    | some row =>
      show 0 ≤ row.files
      unfold Attachment.files
      split <;> decide
  | some later =>
    obtain ⟨row,was,_,gone⟩ := shrinks later is
    rw [was]
    show later.files ≤ row.files
    unfold Attachment.files
    by_cases removed : row.status.removed
    · exact Int.le_of_eq (by rw [if_pos removed,if_pos (gone removed)])
    split <;> decide

theorem shrinks_bytes (shrinks : Shrinks c c') : c'.amount Attachment.bytes ≤ c.amount Attachment.bytes := by
  unfold Cell.amount
  cases is : c'.row with
  | none =>
    cases c.row with
    | none => exact Int.le_refl 0
    | some row =>
      show 0 ≤ row.bytes
      unfold Attachment.bytes
      split <;> omega
  | some later =>
    obtain ⟨row,was,size,gone⟩ := shrinks later is
    rw [was]
    show later.bytes ≤ row.bytes
    unfold Attachment.bytes
    by_cases removed : row.status.removed
    · exact Int.le_of_eq (by rw [if_pos removed,if_pos (gone removed)])
    split <;> omega

theorem put_cells (w : World) (id other : Nat) (c : Cell) : (w.put id c).cells other = if other = id then c else w.cells other := rfl

theorem put_ids (shrinks : Shrinks (w.cells id) c) : (w.put id c).ids = w.ids := by
  refine if_neg fun born => ?_
  obtain ⟨missing,there⟩ := and_eq_true_iff.mp born
  obtain ⟨later,is⟩ := isSome_iff_exists.mp there
  obtain ⟨_,was,_⟩ := shrinks later is
  rw [was] at missing; cases missing

theorem put_total (amount : Attachment → Int) (less : c.amount amount ≤ (w.cells id).amount amount) (ids : (w.put id c).ids = w.ids) :
    total amount (w.put id c).draft ≤ total amount w.draft := by
  rw [draft_total,draft_total,ids]
  refine total_le _ fun other _ => ?_
  rw [put_cells]
  split
  · rename_i same; rw [same]; exact less
  exact Int.le_refl _

theorem set_member (mem : (other,q) ∈ w.flows.set index (id,after)) : (other,q) ∈ w.flows ∨ (other,q) = (id,after) := by
  obtain ⟨_,there⟩ := List.mem_iff_getElem?.mp mem
  obtain ⟨_,same⟩ | ⟨_,before⟩ := moved_get there
  · exact .inr same
  exact .inl (List.mem_of_getElem? before)

theorem call_late (settled : pc.early = false) (ran : pc.call draft c reply = some (c',after)) : after.early = false := by
  cases pc with
  | initRead | insert => cases settled
  | halted => cases ran
  | compose =>
    simp only [Pc.call] at ran
    split at ran
    · obtain ⟨_,is⟩ := ite_none_right_eq_some.mp ran
      cases is; rfl
    · obtain ⟨_,is⟩ := ite_none_left_eq_some.mp ran
      cases is; rfl
    cases ran
  | _ =>
    cases reply <;> simp only [Pc.call,done,asked,aborting,abortNext,reduceCtorEq,some.injEq,Prod.mk.injEq,ite_none_right_eq_some,
      ite_none_left_eq_some] at ran <;> grind [Pc.early]

theorem Sound.settled (sound : Sound w) (here : w.flows[index]? = some (id,pc)) (late : pc.early = false)
    (spare : pc.spared (w.cells id) (w.owed index id) reply) (ran : pc.call w.draft (w.cells id) reply = some (c',after)) :
    Sound { w.put id c' with flows := w.flows.set index (id,after) } := by
  have mem : (id,pc) ∈ w.flows := List.mem_of_getElem? here
  have inserted : id ∈ w.ids := by
    obtain ended | inserted := sound.known id pc mem late
    · subst ended
      cases ran
    exact inserted
  have shrinks := call_shrinks late ran
  have ids := put_ids shrinks
  have after' := call_late late ran
  have custody := sound.custody id inserted
  refine ⟨fun i other q at' early => ?_,fun other q there early => ?_,fun other there => ?_,fun other outside => ?_,fun other there => ?_,?_,?_⟩
  · obtain ⟨_,same⟩ | ⟨_,before⟩ := moved_get at'
    · cases same
      cases after'.symm.trans early
    · obtain ⟨own,fresh⟩ := sound.early i other q before early
      exact ⟨own,by rw [ids]; exact fresh⟩
  · rw [ids]
    obtain old | new := set_member there
    · exact sound.known other q old early
    cases new
    exact .inr inserted
  · rw [ids] at there
    rw [length_set]
    exact sound.inside other there
  · rw [ids] at outside
    have apart : other ≠ id := fun same => outside (same ▸ inserted)
    rw [put_cells,if_neg apart]
    exact sound.empty other outside
  · rw [ids] at there
    rw [put_cells]
    by_cases same : other = id
    · subst same
      rw [if_pos rfl]
      refine custody.handled here (fun helped => ?_) (call_handled late (custody.fits pc mem) spare ran)
      obtain ⟨⟨mine,q⟩,inside,owes⟩ := any_eq_true.mp helped
      obtain ⟨same,owing⟩ := and_eq_true_iff.mp owes
      obtain ⟨place,apart,found⟩ := List.mem_eraseIdx_iff_getElem?.mp inside
      have mine' : mine = other := of_decide_eq_true same
      exact ⟨place,q,apart,mine' ▸ found,owing⟩
    rw [if_neg same]
    exact (sound.custody other there).frame (set_frame here same)
  · exact Int.le_trans (put_total _ (shrinks_files shrinks) ids) sound.files
  exact Int.le_trans (put_total _ (shrinks_bytes shrinks) ids) sound.bytes

theorem Sound.waits (sound : Sound w) (here : w.flows[index]? = some (id,pc)) (early : pc.early) (goes : after = .halted ∨ after.early) :
    Sound { w with flows := w.flows.set index (id,after) } := by
  obtain ⟨own,fresh⟩ := sound.early index id pc here early
  refine ⟨fun i other q at' early' => ?_,fun other q there early' => ?_,fun other there => ?_,sound.empty,fun other there => ?_,sound.files,sound.bytes⟩
  · obtain ⟨place,same⟩ | ⟨_,before⟩ := moved_get at'
    · cases same
      exact ⟨own.trans place.symm,fresh⟩
    · exact sound.early i other q before early'
  · obtain old | new := set_member there
    · exact sound.known other q old early'
    · cases new
      obtain ended | waiting := goes
      · exact .inl ended
      rw [waiting] at early'; cases early'
  · rw [length_set]
    exact sound.inside other there
  refine (sound.custody other there).frame (set_frame here fun same => ?_)
  subst same
  exact fresh there

theorem Sound.inserts (sound : Sound w) (here : w.flows[index]? = some (id,.insert input)) (room : mayInsert w.draft input.size) :
    Sound { w.put id { w.cells id with row := some (newAttachment input) } with flows := w.flows.set index (id,.create input) } := by
  obtain ⟨own,fresh⟩ := sound.early index id _ here rfl
  obtain ⟨missing,empty⟩ := sound.empty id fresh
  have ids : (w.put id { w.cells id with row := some (newAttachment input) }).ids = w.ids++[id] := if_pos (by rw [missing]; rfl)
  have length : id < w.flows.length := own ▸ (List.getElem?_eq_some_iff.mp here).1
  -- The only flow of the attachment that has not ended is this one.
  have others : ∀ (place : Nat) (q : Pc), place ≠ index → w.flows[place]? = some (id,q) → q = .halted := fun place q apart there => by
    cases early : q.early with
    | true => exact absurd ((sound.early place id q there early).1.symm.trans own) apart
    | false =>
      obtain ended | inserted := sound.known id q (List.mem_of_getElem? there) early
      · exact ended
      exact absurd inserted fresh
  have only : ∀ (place : Nat) (q : Pc), (w.flows.set index (id,.create input))[place]? = some (id,q) → q = .create input ∨ q = .halted := fun place q there => by
    obtain ⟨_,same⟩ | ⟨apart,before⟩ := moved_get there
    · cases same; exact .inl rfl
    exact .inr (others place q apart before)
  have onlyMember : ∀ q, (id,q) ∈ w.flows.set index (id,.create input) → q = .create input ∨ q = .halted := fun q there => by
    obtain ⟨place,at'⟩ := List.mem_iff_getElem?.mp there
    exact only place q at'
  simp only [mayInsert,and_eq_true,decide_eq_true_eq] at room
  have apart : ∀ other ∈ w.ids, other ≠ id := fun other there same => fresh (same ▸ there)
  have totals : ∀ amount : Attachment → Int, total amount (World.draft { w.put id { w.cells id with row := some (newAttachment input) } with
      flows := w.flows.set index (id,.create input) }) = total amount w.draft + amount (newAttachment input) := fun amount => by
    rw [draft_total,draft_total,ids,total_append,total_cons,total_nil]
    have kept' : total (fun other => Cell.amount amount ((w.put id { w.cells id with row := some (newAttachment input) }).cells other)) w.ids =
        total (fun other => (w.cells other).amount amount) w.ids := total_congr _ fun other there => by rw [put_cells,if_neg (apart other there)]
    rw [kept',put_cells,if_pos rfl]
    show _ + (amount (newAttachment input) + 0) = _
    omega
  refine ⟨fun i other q at' early => ?_,fun other q there early => ?_,fun other there => ?_,fun other outside => ?_,fun other there => ?_,?_,?_⟩
  · obtain ⟨_,same⟩ | ⟨moved,before⟩ := moved_get at'
    · cases same
      cases early
    · obtain ⟨mine,outside⟩ := sound.early i other q before early
      rw [ids]
      refine ⟨mine,fun mem => ?_⟩
      obtain old | new := mem_append.mp mem
      · exact outside old
      cases mem_singleton.mp new
      rw [others i q moved before] at early; cases early
  · rw [ids]
    obtain old | new := set_member there
    · obtain ended | inserted := sound.known other q old early
      · exact .inl ended
      · exact .inr (mem_append_left _ inserted)
    cases new
    exact .inr (mem_append_right _ (.head _))
  · rw [ids] at there
    rw [length_set]
    obtain old | new := mem_append.mp there
    · exact sound.inside other old
    cases mem_singleton.mp new
    exact length
  · rw [ids] at outside
    have apart' : other ≠ id := fun same => outside (mem_append_right _ (same ▸ .head _))
    rw [put_cells,if_neg apart']
    exact sound.empty other fun old => outside (mem_append_left _ old)
  · rw [ids] at there
    rw [put_cells]
    obtain old | new := mem_append.mp there
    · rw [if_neg (apart other old)]
      exact (sound.custody other old).frame (set_frame here (apart other old))
    cases mem_singleton.mp new
    rw [if_pos rfl]
    refine ⟨fun q there => ?_,fun i j p q atP _ holds => ?_,fun present => absurd empty present,fun x is status => ?_,fun x is status => ?_,
      fun q size there seen => ?_⟩
    · obtain rfl | rfl := onlyMember q there
      · exact light_fits rfl
      · exact light_fits rfl
    · obtain rfl | rfl := only i p atP
      · exact absurd rfl holds
      · exact absurd rfl holds
    · cases is
      obtain no | no := status <;> cases no
    · cases is
      cases status
    obtain rfl | rfl := onlyMember q there
    · cases seen
    cases seen
  · rw [totals]
    have one : (newAttachment input).files = 1 := rfl
    omega
  rw [totals]
  have size : (newAttachment input).bytes = input.size := rfl
  omega

theorem next_sound (sound : Sound w) (moved : next w action = some v) (spare : spared w action) : Sound v := by
  have about : ∀ {id : Nat} {pc : Pc}, pc.light → pc.early = false → w.about id pc = some v → Sound v := by
    intro _ _ light late begun
    obtain ⟨inserted,same⟩ := ite_none_right_eq_some.mp begun
    cases same
    exact sound.begin light late inserted
  cases action with
  | init input =>
    obtain ⟨_,same⟩ := ite_none_right_eq_some.mp moved
    cases same
    exact sound.init input
  | reply index reply =>
    obtain ⟨⟨id,pc⟩,here,ran⟩ := bind_eq_some_iff.mp moved
    obtain ⟨⟨c,after⟩,called,same⟩ := map_eq_some_iff.mp ran
    cases same
    have spare' : pc.spared (w.cells id) (w.owed index id) reply := by simpa only [spared,here] using spare
    cases early : pc.early with
    | false => exact sound.settled here early spare' called
    | true =>
      obtain ⟨_,fresh⟩ := sound.early index id pc here early
      have missing := (sound.empty id fresh).1
      -- A call that leaves the cell of the attachment as it is.
      have unchanged : ∀ after : Pc, after = .halted ∨ after.early → Sound { w.put id (w.cells id) with flows := w.flows.set index (id,after) } := by
        intro after goes
        have same : w.put id (w.cells id) = w := by
          unfold World.put
          rw [missing,if_neg (by simp)]
          congr
          funext other
          split
          · rename_i same; rw [same]
          rfl
        rw [same]
        exact sound.waits here early goes
      cases pc with
      | initRead =>
        cases reply with
        | ok =>
          cases called
          refine unchanged _ ?_
          split
          · exact .inl rfl
          exact .inr rfl
        | _ => cases called
      | insert input =>
        cases reply with
        | flag allowed =>
          have called' : (if allowed && !w.draft.any (·.clientUpload = input.clientUpload) && mayInsert w.draft input.size then
              (({ w.cells id with row := some (newAttachment input) } : Cell),Pc.create input) else (w.cells id,.halted)) = (c,after) := some.inj called
          split at called'
          · rename_i room
            cases called'
            exact sound.inserts here (and_eq_true_iff.mp room).2
          cases called'
          exact unchanged _ (.inl rfl)
        | _ => cases called
      | _ => cases early
  | _ => exact about rfl rfl moved
end

def World.fresh : World := ⟨[],fun _ => .empty,[]⟩

theorem fresh_sound : Sound World.fresh where
  early := fun _ _ _ there => by cases there
  known := fun _ _ mem => by cases mem
  inside := fun _ mem => by cases mem
  empty := fun _ _ => ⟨rfl,rfl⟩
  custody := fun _ mem => by cases mem
  files := by decide
  bytes := by decide

-- The draft keeps its limits; in an idle state a kept attachment has the object it recorded and a removed one none;
-- an accepted one always has its object.
structure Kept (w : World) : Prop where
  files : total Attachment.files w.draft ≤ maxFiles
  bytes : total Attachment.bytes w.draft ≤ maxTotalBytes
  whole : (∀ flow ∈ w.flows, flow.2 = .halted) → ∀ id row, (w.cells id).row = some row → row.status.kept = true →
    ∃ size, (w.cells id).object = some size ∧ row.actual = some size
  bare : (∀ flow ∈ w.flows, flow.2 = .halted) → ∀ id row, (w.cells id).row = some row → row.status.removed = true → (w.cells id).object = none
  accepted : ∀ id row, (w.cells id).row = some row → row.status = .accepted → ∃ size, (w.cells id).object = some size ∧ row.actual = some size

theorem sound_kept (sound : Sound w) : Kept w := by
  have custody : ∀ id row, (w.cells id).row = some row → Custody (w.cells id).view (w.cells id).object w.flows id := fun id row is => by
    by_contra absent
    have outside : id ∉ w.ids := fun mem => absent (sound.custody id mem)
    rw [(sound.empty id outside).1] at is; cases is
  refine ⟨sound.files,sound.bytes,fun idle id row is keeps => ?_,fun idle id row is gone => ?_,fun id row is status => ?_⟩
  · cases status : row.status with
    | quarantined | scanning =>
      obtain recorded | ⟨_,pc,mem,sweeps⟩ := (custody id row is).whole row.view (view_some is) (by simp [Attachment.view,status])
      · exact recorded
      have ended : pc = .halted := idle (id,pc) mem
      rw [ended] at sweeps; cases sweeps
    | accepted => exact (custody id row is).safe row.view (view_some is) status
    | _ => rw [status] at keeps; cases keeps
  · by_contra present
    obtain keeps | missing | ⟨pc,mem,owes⟩ := (custody id row is).owed present
    · exact (removed_status (view_some is) gone).1 keeps
    · rw [view_some is] at missing; cases missing
    have ended : pc = .halted := idle (id,pc) mem
    rw [ended] at owes; cases owes
  exact (custody id row is).safe row.view (view_some is) status

def Step (w : World) (action : Action) (v : World) : Prop := next w action = some v

-- Custody holds along every run in which no flow gives up an object it answers for, and no cleanup or receipt goes by
-- a status or object changed since.
theorem attachments_kept {actions : List Action} {w : World}
    (run : Runs (Guarded Step fun w action => spared w action = true) World.fresh actions w) : Kept w :=
  sound_kept (run.preserves Sound (fun _ _ _ sound taken => next_sound sound taken.1 taken.2) fresh_sound)

def arrive (actions : List Action) : Option World := follow next World.fresh actions
def replies (flow : Nat) (answers : List Reply) : List Action := answers.map (.reply flow)
def photo (native : Bool) : Input := ⟨1,0,5,native⟩
def created (native : Bool) : List Action := .init (photo native) :: replies 0 [.ok,.flag true,.ok]
def opened (native : Bool) : List Action := created native++replies 0 [.flag true]
def composed (flow : Nat) : List Action := replies flow [.ok,.flag true,.flag true,.composed 5,.flag true]
def scanned (flow : Nat) : List Action := replies flow [.ok,.ok,.ok]

def removedAfter : List Action :=
  opened false++.complete 0 false :: composed 1++replies 1 [.flag true]++.scan 0 ⟨true,9⟩ :: scanned 2++.abort 0 false :: replies 3 [.ok,.flag true,.ok]

def removedWorld : World := (arrive removedAfter).getD World.fresh

theorem attachments_kept_example : removedWorld.draft.map (·.status) = [.aborted] ∧ removedWorld.flows.map Prod.snd = [.halted,.halted,.halted,.halted] ∧ Kept removedWorld :=
  have run : Runs (Guarded Step fun w action => spared w action = true) World.fresh removedAfter removedWorld := Runs.of_checked rfl
  ⟨rfl,rfl,attachments_kept run⟩

-- A cleanup that read the row before the scanner accepted it; a portal completion after a removal that read the
-- pending row; a native removal that read an uploading row before its completion.
def sweptAccepted : List Action :=
  opened false++.complete 0 false :: composed 1++replies 1 [.flag true]++.cleanup 0 :: replies 2 [.flag true]++.scan 0 ⟨true,9⟩ :: scanned 3 ++
    replies 2 [.ok,.ok]

def completedAborted : List Action :=
  created false++.abort 0 false :: replies 1 [.ok]++replies 0 [.flag true]++.complete 0 false :: replies 2 [.ok,.flag true,.flag true] ++
    replies 1 [.flag true,.ok]++replies 2 [.composed 5,.flag true,.flag true]

def abortedCompleted : List Action :=
  opened true++.abort 0 true :: replies 1 [.ok]++.complete 0 true :: composed 2++replies 2 [.flag true]++replies 1 [.flag true,.failed]

theorem idle_all {flows : List (Nat × Pc)} (idle : flows.all (·.2 = .halted)) : ∀ flow ∈ flows, flow.2 = .halted :=
  fun flow mem => of_decide_eq_true (all_eq_true.mp idle flow mem)

theorem attachments_lost :
    (∃ w, arrive sweptAccepted = some w ∧ w.draft.map (·.status) = [.accepted] ∧ (w.cells 0).object = none ∧ w.flows.all (·.2 = .halted) = true ∧ ¬Kept w) ∧
    (∃ w, arrive completedAborted = some w ∧ w.draft.map (·.status) = [.aborted] ∧ (w.cells 0).object = some 5 ∧ w.flows.all (·.2 = .halted) = true ∧ ¬Kept w) ∧
    (∃ w, arrive abortedCompleted = some w ∧ w.draft.map (·.status) = [.aborted] ∧ (w.cells 0).object = some 5 ∧ w.flows.all (·.2 = .halted) = true ∧ ¬Kept w) := by
  refine ⟨⟨_,rfl,rfl,rfl,rfl,fun kept => ?_⟩,⟨_,rfl,rfl,rfl,rfl,fun kept => ?_⟩,⟨_,rfl,rfl,rfl,rfl,fun kept => ?_⟩⟩
  · obtain ⟨_,there,_⟩ := kept.accepted 0 _ rfl rfl
    cases there
  · have gone : some 5 = none := kept.bare (idle_all rfl) 0 _ rfl rfl
    cases gone
  have gone : some 5 = none := kept.bare (idle_all rfl) 0 _ rfl rfl
  cases gone
end LedgeTopOps.RequestAttachments
