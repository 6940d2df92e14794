import LedgeTopOps.ReadyPromotionCustody

namespace LedgeTopOps.ReadyPromotion
open List KeyedRows StepRuns
open Bool (and_eq_true)

structure Next (p : Provider) (w : World) (pc : Pc) : Prop where
  begins : Begins p pc
  rowless : w.journal = none → pc.row = none
  agrees : ∀ j, w.journal = some j → (∀ row, pc.row = some row → Older row j) ∧ Agrees p j pc
  other : pc.completing = false

section
variable {p : Provider} {w : World}

theorem agrees_plain (none : pc.row = none) : Agrees p j pc := by
  cases pc with
  | fetch | send | keep | fence | complete => cases none
  | _ => exact trivial

theorem plain_next (none : pc.row = none) (begins : Begins p pc) : Next p w pc := by
  refine ⟨begins,fun _ => none,fun j _ => ⟨fun row is => ?_,agrees_plain none⟩,?_⟩
  · rw [none] at is
    cases is
  cases pc with
  | complete => cases none
  | _ => rfl

theorem journal_of (row : JournalRow) (good : Good p w) (mem : f ∈ w.flows) (at_ : f.pc.row = some row) : ∃ j, w.journal = some j ∧ Older row j := by
  cases is : w.journal with
  | none =>
    rw [(good.fresh is).2.2 f mem] at at_
    cases at_
  | some j => exact ⟨j,rfl,(good.journal j is).older f mem row at_⟩

theorem row_next (good : Good p w) (mem : f ∈ w.flows) (at_ : f.pc.row = some row) (is : pc.row = some row) (begins : Begins p pc)
    (agrees : ∀ j, w.journal = some j → Older row j → Agrees p j pc) (other : pc.completing = false) : Next p w pc := by
  obtain ⟨j,stored,older⟩ := journal_of row good mem at_
  refine ⟨begins,fun none => ?_,fun k there => ?_,other⟩
  · rw [stored] at none
    cases none
  cases stored.symm.trans there
  refine ⟨fun other same => ?_,agrees j stored older⟩
  cases is.symm.trans same
  exact older

theorem afterGuard_next (good : Good p w) (mem : f ∈ w.flows) (at_ : f.pc.row = some row) : Next p w (afterGuard row) := by
  unfold afterGuard
  split
  · exact plain_next rfl trivial
  rename_i plan planned
  have same : ∀ j, Older row j → j.plan = some plan := fun j older => by
    unfold JournalRow.plan
    rw [←older.source]
    exact planned
  split
  · exact row_next good mem at_ rfl trivial (fun _ _ _ => trivial) rfl
  split
  · rename_i less
    exact row_next good mem at_ rfl trivial (fun j _ older => ⟨same j older,less⟩) rfl
  rename_i full
  exact row_next good mem at_ rfl trivial (fun j _ older => ⟨plan,same j older,Nat.le_of_not_lt full⟩) rfl

theorem sameObject_facts (same : sameObject p o expected) : (p.content o.version).length = expected.bytes ∧ o.version = expected.objectVersion := by
  unfold sameObject at same
  rw [and_eq_true,and_eq_true,decide_eq_true_eq,decide_eq_true_eq,decide_eq_true_eq] at same
  exact ⟨same.1.1,same.2⟩

theorem resume_next (fine : Bool) : Next p w (w.effect p fine .resume).2 := by
  unfold World.effect
  cases is : w.journal with
  | none => exact plain_next rfl trivial
  | some row =>
    have own : ∀ pc : Pc, pc.row = some row → pc.completing = false → Begins p pc → Agrees p row pc → Next p w pc := fun pc at_ other begins agrees =>
      ⟨begins,fun none => (by cases is.symm.trans none),fun j there => by
        cases is.symm.trans there
        refine ⟨fun x same => ?_,agrees⟩
        cases at_.symm.trans same
        exact ⟨rfl,fun _ same => same,prefix_rfl⟩,other⟩
    dsimp only
    split
    · exact own _ rfl rfl trivial trivial
    · exact plain_next rfl trivial
    · exact plain_next rfl trivial
    · exact plain_next rfl trivial
    · exact own _ rfl rfl trivial trivial
    exact own _ rfl rfl trivial trivial

theorem fetch_next (good : Good p w) (mem : f ∈ w.flows) (at_ : f.pc = .fetch row plan) (fine : Bool) : Next p w (w.effect p fine (.fetch row plan)).2 := by
  unfold World.effect
  dsimp only
  split
  · exact plain_next rfl trivial
  rename_i o _
  split
  · rename_i same
    obtain ⟨_,version⟩ := sameObject_facts same
    refine row_next good mem (by rw [at_]; rfl) rfl trivial (fun j is older => ?_) rfl
    have agrees := (good.journal j is).agrees f mem
    rw [at_] at agrees
    refine ⟨plan,agrees.1,agrees.2,rfl,?_⟩
    unfold JournalRow.bytes
    rw [version,older.source]
  exact plain_next rfl trivial

def Pc.reads : Pc → Bool
  | .resume | .eligible _ | .basic _ _ | .head _ | .fetch _ _ | .recover _ | .begin_ | .admitted | .origin _ _ _ | .sample _ | .current | .retained => true
  | _ => false

theorem reads_still (fine : Bool) (reads : pc.reads) : (w.effect p fine pc).1 = w := by
  cases pc with
  | resume | eligible | basic | head | fetch | recover | begin_ | admitted | origin | sample | current | retained => rfl
  | _ => cases reads

theorem reads_next (good : Good p w) (mem : f ∈ w.flows) (fine : Bool) (reads : f.pc.reads) : Next p w (w.effect p fine f.pc).2 := by
  cases at_ : f.pc with
  | resume => exact resume_next fine
  | fetch => exact fetch_next good mem at_ fine
  | eligible | basic =>
    show Next p w (if _ then _ else _)
    split
    · exact row_next good mem (by rw [at_]; rfl) rfl trivial (fun _ _ _ => trivial) rfl
    exact plain_next rfl trivial
  | head =>
    show Next p w (if _ then _ else _)
    split
    · exact afterGuard_next good mem (by rw [at_]; rfl)
    exact plain_next rfl trivial
  | recover | begin_ | current =>
    show Next p w (if _ then _ else _)
    split
    · exact plain_next rfl trivial
    exact plain_next rfl trivial
  | admitted =>
    unfold World.effect
    dsimp only
    split
    · split
      · exact plain_next rfl trivial
      · exact plain_next rfl trivial
    exact plain_next rfl trivial
  | origin upload etag bytes =>
    unfold World.effect
    dsimp only
    split
    · exact plain_next rfl trivial
    split
    · rename_i all
      rw [and_eq_true,and_eq_true,and_eq_true] at all
      exact plain_next rfl (sameObject_facts all.1.1.1).1
    exact plain_next rfl trivial
  | sample =>
    show Next p w (if _ then _ else _)
    split
    · have begins := good.begins f mem
      rw [at_] at begins
      exact plain_next rfl begins
    exact plain_next rfl trivial
  | retained =>
    unfold World.effect
    dsimp only
    split
    · exact plain_next rfl trivial
    split
    · exact plain_next rfl trivial
    · exact plain_next rfl trivial
    · exact plain_next rfl trivial
    · exact plain_next rfl trivial
    · exact plain_next rfl trivial
    exact plain_next rfl trivial
  | _ =>
    rw [at_] at reads
    cases reads
end

section
variable {p : Provider} {w : World}

section
variable (good : Good p w) (mem : f ∈ w.flows)
include good mem

theorem send_good
    (at_ : f.pc = .send row number bytes) (is : row.multipartUploadId = some multipart) :
    Good p { w with sent := ⟨multipart,number,bytes⟩ :: w.sent } ∧
      Next p { w with sent := ⟨multipart,number,bytes⟩ :: w.sent } (.keep row number (p.partEtag bytes)) := by
  obtain ⟨j,stored,older⟩ := journal_of row good mem (by rw [at_]; rfl)
  have journal := good.journal j stored
  have agrees := journal.agrees f mem
  rw [at_] at agrees
  obtain ⟨plan,planned,less,named,held⟩ := agrees
  have fresh : ∀ s ∈ (⟨multipart,number,bytes⟩ :: w.sent : List SentPart), j.multipartUploadId = some s.multipart ∧
      ∀ plan, j.plan = some plan → s.bytes = plan.range (j.bytes p) s.number := fun s there => by
    rcases mem_cons.mp there with rfl | old
    · refine ⟨older.multipart _ is,fun other same => ?_⟩
      cases planned.symm.trans same
      exact held
    exact journal.sent s old
  refine ⟨⟨good.named,good.begins,fun none => ?_,fun k there => ?_⟩,⟨trivial,fun none => ?_,fun k there => ?_,rfl⟩⟩
  · cases stored.symm.trans none
  · cases stored.symm.trans there
    exact ⟨journal.whole,journal.parts,fresh,journal.older,journal.agrees,journal.idle,journal.once,journal.free,journal.single,journal.done⟩
  · cases stored.symm.trans none
  cases stored.symm.trans there
  refine ⟨fun x same => ?_,plan,planned,less,named,by rw [held]⟩
  cases same
  exact older

theorem insert_good (at_ : f.pc = .insert source) (absent : w.journal = none) :
    Good p { w with basic := some source, journal := some ⟨source,none,[],.pending⟩ } := by
  have begins := good.begins f mem
  rw [at_] at begins
  obtain ⟨completions,sent,rows⟩ := good.fresh absent
  refine ⟨good.named,good.begins,fun other => (by cases other),fun j is => ?_⟩
  cases is
  refine ⟨begins,fun plan _ => ⟨Nat.zero_le _,rfl⟩,fun s there => ?_,fun g there row is => ?_,fun g there => agrees_plain (rows g there),fun _ => completions,?_,
    fun _ _ _ => completions,fun g there h _ completing => ?_,fun c there => ?_⟩
  · rw [show w.sent = [] from sent] at there
    exact (not_mem_nil there).elim
  · rw [rows g there] at is
    cases is
  · show w.completions.length ≤ 1
    rw [completions]
    exact Nat.zero_le _
  · have rowless := rows g there
    cases pc : g.pc with
    | complete =>
      rw [pc] at rowless
      cases rowless
    | _ =>
      rw [pc] at completing
      cases completing
  rw [show w.completions = [] from completions] at there
  exact (not_mem_nil there).elim

theorem fenced_good (at_ : f.pc = .fence row) (wins : w.fences row timely) : Good p ((w.fence row timely).goes f.name (.complete row)) := by
  have after : Good p (w.fence row timely) := fence_good good
  unfold World.fences at wins
  rw [and_eq_true,and_eq_true] at wins
  obtain ⟨j,stored,holds⟩ := (Option.any_eq_true _ _).mp wins.1.1
  have journal := good.journal j stored
  have copying := (holds_facts holds).1
  have idle : j.state.fenced = false := by
    rw [copying]
    rfl
  have completions := journal.idle idle
  have none : ∀ g ∈ w.flows, g.pc.completing = false := fun g there => by
    cases pc : g.pc with
    | complete =>
      have agrees := journal.agrees g there
      rw [pc] at agrees
      exact absurd agrees.2 (by rw [idle]; exact Bool.false_ne_true)
    | _ => rfl
  have agrees := journal.agrees f mem
  rw [at_] at agrees
  have moved : (w.fence row timely).journal = some { j with state := .publishing } := by
    show w.journal.map _ = _
    rw [stored,Option.map_some,holds,wins.1.2,wins.2]
    rfl
  have now := after.journal _ moved
  have only : ∀ g ∈ ((w.fence row timely).goes f.name (.complete row)).flows, g.pc.completing → g = { f with pc := .complete row } := fun g there completing => by
    rcases mem_goes after.named mem there with ⟨old,_⟩ | is
    · rw [none g old] at completing
      cases completing
    exact is
  refine ⟨after.named.amend _ fun _ _ _ => rfl,fun g there => ?_,fun other => ?_,fun k is => ?_⟩
  · rcases mem_goes after.named mem there with ⟨old,_⟩ | rfl
    · exact after.begins g old
    · exact trivial
  · cases moved.symm.trans other
  cases moved.symm.trans is
  refine ⟨now.whole,now.parts,now.sent,fun g there x same => ?_,fun g there => ?_,now.idle,now.once,fun _ _ _ => completions,fun g first h second left right => ?_,now.done⟩
  · rcases mem_goes after.named mem there with ⟨old,_⟩ | rfl
    · exact now.older g old x same
    · exact now.older f mem x (by rw [at_]; exact same)
  · rcases mem_goes after.named mem there with ⟨old,_⟩ | rfl
    · exact now.agrees g old
    · exact ⟨agrees,rfl⟩
  rw [only g first left,only h second right]

theorem complete_good (at_ : f.pc = .complete row) (is : row.multipartUploadId = some multipart) (plain : pc.row = none) (begins : Begins p pc) :
    Good p ((w.complete p row multipart).goes f.name pc) := by
  obtain ⟨j,stored,older⟩ := journal_of row good mem (by rw [at_]; rfl)
  have journal := good.journal j stored
  have agrees := journal.agrees f mem
  rw [at_] at agrees
  obtain ⟨⟨plan,planned,full⟩,fenced⟩ := agrees
  have empty := journal.free f mem (by rw [at_]; rfl)
  obtain ⟨short,listed⟩ := journal.parts plan planned
  have same : row.parts = j.parts := older.parts.eq_of_length_le (by omega)
  have count : j.parts.length = plan.partCount := by
    rw [same] at full
    omega
  rw [count] at listed
  have own := older.multipart multipart is
  obtain ⟨object,done,flows,journals,sent,held⟩ : ∃ object, (w.complete p row multipart).completions = w.completions++[⟨multipart,row.parts,object⟩] ∧
      (w.complete p row multipart).flows = w.flows ∧ (w.complete p row multipart).journal = w.journal ∧ (w.complete p row multipart).sent = w.sent ∧
      ∀ bytes, object = some bytes → w.assemble p multipart row.parts = some bytes := by
    unfold World.complete
    dsimp only
    split
    · exact ⟨none,rfl,rfl,rfl,rfl,fun bytes other => by cases other⟩
    rename_i bytes made
    refine ⟨some bytes,rfl,rfl,rfl,rfl,fun other same => ?_⟩
    cases same
    split at made
    · cases made
    exact made
  have exact_ : Exact p j ⟨multipart,row.parts,object⟩ := by
    refine ⟨own,⟨plan,planned,same.trans listed⟩,fun bytes made => ?_⟩
    have covers : Covers plan (j.bytes p).length := by
      rw [journal.whole]
      exact plan_covers planned
    have whole := assembled (fun s there _ => (journal.sent s there).2 plan planned) (held bytes made)
    rw [whole,same,listed,listing_concat covers]
  generalize w.complete p row multipart = v at done flows journals sent
  have named : Keyed Flow.name v.flows := by
    rw [flows]
    exact good.named
  have there : f ∈ v.flows := by
    rw [flows]
    exact mem
  have moved : ∀ g ∈ (v.goes f.name pc).flows, (g ∈ w.flows ∧ g.name ≠ f.name) ∨ g = { f with pc := pc } := fun g listed => by
    rcases mem_goes named there listed with ⟨old,apart⟩ | same
    · rw [flows] at old
      exact .inl ⟨old,apart⟩
    exact .inr same
  have left : ∀ g ∈ (v.goes f.name pc).flows, g.pc.completing = false := fun g listed => by
    rcases moved g listed with ⟨old,apart⟩ | rfl
    · by_contra completing
      rw [Bool.not_eq_false] at completing
      exact apart (congrArg Flow.name (journal.single g old f mem completing (by rw [at_]; rfl)))
    exact (plain_next (w := w) plain begins).other
  refine ⟨named.amend _ fun _ _ _ => rfl,fun g listed => ?_,fun other => ?_,fun k now => ?_⟩
  · rcases moved g listed with ⟨old,_⟩ | rfl
    · exact good.begins g old
    · exact begins
  · cases (journals.trans stored).symm.trans other
  cases (journals.trans stored).symm.trans now
  refine ⟨journal.whole,journal.parts,fun s mem => journal.sent s (sent ▸ mem),fun g listed x at_ => ?_,fun g listed => ?_,fun idle => ?_,?_,fun g listed completing => ?_,
    fun g listed h _ completing => ?_,fun c mem => ?_⟩
  · rcases moved g listed with ⟨old,_⟩ | rfl
    · exact journal.older g old x at_
    · rw [show ({ f with pc := pc } : Flow).pc.row = none from plain] at at_
      cases at_
  · rcases moved g listed with ⟨old,_⟩ | rfl
    · exact journal.agrees g old
    · exact agrees_plain plain
  · rw [fenced] at idle
    cases idle
  · show v.completions.length ≤ 1
    rw [done,empty]
    exact Nat.le_refl _
  · rw [left g listed] at completing
    cases completing
  · rw [left g listed] at completing
    cases completing
  rw [show (v.goes f.name pc).completions = _ from done,empty] at mem
  cases mem_singleton.mp mem
  exact exact_
end

theorem both_good (good : Good p v) (mem : f ∈ v.flows) (next : Next p v pc) : Good p (v.goes f.name pc) ∧ Good p (v.goes f.name .ended) :=
  ⟨goes_good good mem next.begins next.rowless next.agrees next.other,ends_good good mem⟩

theorem complete_both (good : Good p w) (mem : f ∈ w.flows) (at_ : f.pc = .complete row) (fine : Bool) :
    Good p ((w.effect p fine (.complete row)).1.goes f.name (w.effect p fine (.complete row)).2) ∧
      Good p ((w.effect p fine (.complete row)).1.goes f.name .ended) := by
  unfold World.effect
  dsimp only
  cases is : row.multipartUploadId with
  | none => exact ⟨ends_good good mem,ends_good good mem⟩
  | some =>
    refine ⟨?_,complete_good good mem at_ is rfl trivial⟩
    dsimp only
    split
    · exact complete_good good mem at_ is rfl trivial
    exact complete_good good mem at_ is rfl trivial

theorem effect_good (good : Good p w) (mem : f ∈ w.flows) (fine : Bool) :
    Good p ((w.effect p fine f.pc).1.goes f.name (w.effect p fine f.pc).2) ∧ Good p ((w.effect p fine f.pc).1.goes f.name .ended) := by
  by_cases reads : f.pc.reads
  · have next := reads_next good mem fine reads
    rw [reads_still fine reads]
    exact both_good good mem next
  cases at_ : f.pc with
  | unavailable | settle | exhaust => exact both_good (mark_good good (by decide)) mem (plain_next rfl trivial)
  | retire multipart =>
    refine both_good (mark_good good (by decide)) mem ?_
    cases multipart with
    | none | some multipart => exact plain_next rfl trivial
  | create =>
    exact both_good (still_good good rfl rfl rfl rfl) mem (plain_next rfl trivial)
  | save =>
    refine both_good (save_good good) mem ?_
    show Next p _ (if _ then _ else _)
    split
    · exact plain_next rfl trivial
    exact plain_next rfl trivial
  | discard | abort => exact both_good (still_good good rfl rfl rfl rfl) mem (plain_next rfl trivial)
  | expire =>
    show Good p (World.goes (if fine then w else _) _ _) ∧ Good p (World.goes (if fine then w else _) _ _)
    split
    · exact both_good good mem (plain_next rfl trivial)
    exact both_good (still_good good rfl rfl rfl rfl) mem (plain_next rfl trivial)
  | send row =>
    unfold World.effect
    dsimp only
    cases is : row.multipartUploadId with
    | none => exact ⟨ends_good good mem,ends_good good mem⟩
    | some =>
      dsimp only
      split
      · exact ⟨ends_good good mem,ends_good good mem⟩
      obtain ⟨sent,next⟩ := send_good good mem at_ is
      exact both_good sent mem next
  | keep =>
    refine both_good (keep_good good fun j is => ?_) mem (plain_next rfl trivial)
    have agrees := (good.journal j is).agrees f mem
    rw [at_] at agrees
    exact agrees
  | fence row =>
    refine ⟨?_,ends_good (fence_good good) mem⟩
    show Good p ((w.fence row fine).goes f.name (if w.fences row fine = true then .complete row else .ended))
    split
    · rename_i wins
      exact fenced_good good mem at_ wins
    exact ends_good (fence_good good) mem
  | complete => exact complete_both good mem at_ fine
  | insert source =>
    show Good p (World.goes (if w.journal.isSome = true then w else _) _ _) ∧ Good p (World.goes (if w.journal.isSome = true then w else _) _ _)
    split
    · exact both_good good mem (plain_next rfl trivial)
    rename_i absent
    rw [Bool.not_eq_true,Option.isSome_eq_false_iff,Option.isNone_iff_eq_none] at absent
    exact both_good (insert_good good mem at_ absent) mem (plain_next rfl trivial)
  | ended => exact ⟨ends_good good mem,ends_good good mem⟩
  | _ =>
    rw [at_] at reads
    exact absurd rfl reads

theorem start_good (good : Good p w) (opening : pc.opening) (fresh : ∀ g ∈ w.flows, g.name ≠ name) : Good p { w with flows := w.flows++[⟨name,pc⟩] } := by
  have plain : pc.row = none ∧ Begins p pc := by
    cases pc with
    | resume | begin_ | exhaust | expire | current => exact ⟨rfl,trivial⟩
    | _ => cases opening
  have next : ∀ v : World, Next p v pc := fun v => plain_next plain.1 plain.2
  have held : ∀ holds : Pc → Prop, (∀ g ∈ w.flows, holds g.pc) → holds pc → ∀ g ∈ w.flows++[⟨name,pc⟩], holds g.pc := fun holds all new g there => by
    rcases mem_snoc.mp there with old | rfl
    · exact all g old
    exact new
  refine ⟨good.named.add fun g there => fresh g there,held (Begins p) good.begins plain.2,fun none => ?_,fun j is => ?_⟩
  · obtain ⟨completions,sent,rows⟩ := good.fresh none
    exact ⟨completions,sent,held (·.row = .none) rows plain.1⟩
  have journal := good.journal j is
  refine ⟨journal.whole,journal.parts,journal.sent,held (fun pc => ∀ row, pc.row = some row → Older row j) journal.older ((next w).agrees j is).1,
    held (Agrees p j) journal.agrees ((next w).agrees j is).2,journal.idle,journal.once,?_,fun g first h second left right => ?_,journal.done⟩
  · refine held (fun pc => pc.completing → w.completions = []) journal.free fun completing => ?_
    rw [(next w).other] at completing
    cases completing
  rcases mem_snoc.mp first with old | rfl
  · rcases mem_snoc.mp second with other | rfl
    · exact journal.single g old h other left right
    · rw [show (⟨name,pc⟩ : Flow).pc.completing = false from (next w).other] at right
      cases right
  rw [show (⟨name,pc⟩ : Flow).pc.completing = false from (next w).other] at left
  cases left

theorem next_good (good : Good p w) (is : next p w event = some v) : Good p v := by
  cases event with
  | start name pc =>
    unfold next at is
    dsimp only at is
    split at is
    · rename_i may
      cases is
      rw [and_eq_true,Bool.not_eq_true',any_eq_false] at may
      exact start_good good may.1 fun g there same => may.2 g there (decide_eq_true same)
    cases is
  | call _ outcome fine =>
    obtain ⟨f,found,moved⟩ := Option.bind_eq_some_iff.mp is
    obtain ⟨mem,rfl⟩ := find_some found
    split at moved
    · cases moved
    cases outcome with
    | returns =>
      cases moved
      exact (effect_good good mem fine).1
    | lost =>
      cases moved
      exact (effect_good good mem fine).2
    | fails =>
      cases moved
      exact ends_good good mem
  | row =>
    unfold next at is
    dsimp only at is
    split at is
    · cases is
    cases is
    exact still_good good rfl rfl rfl rfl
  | replaced | moved =>
    cases is
    exact still_good good rfl rfl rfl rfl

theorem initial_good (upload : UploadRow) (source : Option SourceObject) : Good p (initial upload source) := by
  refine ⟨nodup_nil,fun _ there => (not_mem_nil there).elim,fun _ => ⟨rfl,rfl,fun _ there => (not_mem_nil there).elim⟩,fun j is => ?_⟩
  cases is

theorem good_published (good : Good p w) : Published p w := by
  cases is : w.journal with
  | none =>
    have empty := (good.fresh is).1
    refine ⟨?_,fun c there => ?_⟩
    · rw [empty]
      exact Nat.zero_le _
    rw [empty] at there
    exact (not_mem_nil there).elim
  | some j =>
    have journal := good.journal j is
    refine ⟨journal.once,fun c there => ?_⟩
    obtain ⟨multipart,⟨plan,planned,listed⟩,object⟩ := journal.done c there
    have covers : Covers plan (j.bytes p).length := by
      rw [journal.whole]
      exact plan_covers planned
    refine ⟨j,plan,is,planned,multipart,?_,fun part mem => ?_,?_,journal.whole,object⟩
    · rw [listed]
      exact listing_numbers
    · rw [listed] at mem
      exact listing_tags mem
    rw [listed]
    exact listing_concat covers
end

def PromotionState.forward : PromotionState → PromotionState → Bool
  | .ready, t => t = .ready
  | .publishing, t => t.fenced
  | .unavailable, t | .failed, t => t = .unavailable || t = .failed
  | .pending, _ | .copying, _ => true

structure Moves (w v : World) : Prop where
  journal : ∀ j, w.journal = some j → ∃ k, v.journal = some k ∧ j.state.forward k.state = true ∧
    (k.state.fenced = true → j.state.fenced = true ∨ w.upload.eligible = true)
  created : w.journal = none → ∀ k, v.journal = some k → k.state.fenced = false
  completions : v.completions = w.completions ∨ ∃ j, w.journal = some j ∧ j.state.fenced = true
  upload : w.upload.withdrawn = true → v.upload.withdrawn = true

section
variable {p : Provider} {w v : World}

theorem forward_refl (s : PromotionState) : s.forward s := by
  cases s with
  | _ => rfl

theorem still_moves (journal : v.journal = w.journal) (completions : v.completions = w.completions) (upload : w.upload.withdrawn → v.upload.withdrawn) :
    Moves w v :=
  ⟨fun j is => ⟨j,journal.trans is,forward_refl _,.inl⟩,fun none k is => (by cases none.symm.trans (journal.symm.trans is)),.inl completions,upload⟩

theorem revised_moves (forward : ∀ j, w.journal = some j → j.state.forward (change j).state ∧
    ((change j).state.fenced → j.state.fenced ∨ w.upload.eligible)) : Moves w (w.revise change) := by
  refine ⟨fun j is => ⟨change j,?_,forward j is⟩,fun none k is => ?_,.inl rfl,id⟩
  · show w.journal.map change = _
    rw [is]
    rfl
  rw [show (w.revise change).journal = w.journal.map change from rfl,none] at is
  cases is

theorem mark_moves (forward : ∀ s ∈ states, s.forward state ∧ (state.fenced → s.fenced)) : Moves w (w.mark state states) := by
  refine revised_moves fun j _ => ?_
  split
  · rename_i marked
    exact ⟨(forward _ marked).1,fun is => .inl ((forward _ marked).2 is)⟩
  exact ⟨forward_refl _,.inl⟩

theorem complete_moves (good : Good p w) (mem : f ∈ w.flows) (at_ : f.pc = .complete row) (multipart : Nat) : Moves w (w.complete p row multipart) := by
  obtain ⟨j,stored,_⟩ := journal_of row good mem (by rw [at_]; rfl)
  have agrees := (good.journal j stored).agrees f mem
  rw [at_] at agrees
  have kept : (w.complete p row multipart).journal = w.journal ∧ (w.complete p row multipart).upload = w.upload := by
    unfold World.complete
    dsimp only
    split
    · exact ⟨rfl,rfl⟩
    exact ⟨rfl,rfl⟩
  refine ⟨fun k is => ⟨k,kept.1.trans is,forward_refl _,.inl⟩,fun none => ?_,.inr ⟨j,stored,agrees.2⟩,fun withdrawn => by rw [kept.2]; exact withdrawn⟩
  cases stored.symm.trans none

theorem expired_withdrawn {u : UploadRow} : UploadRow.withdrawn { u with status := .expired } := by
  unfold UploadRow.withdrawn
  rfl

theorem effect_moves (good : Good p w) (mem : f ∈ w.flows) (fine : Bool) : Moves w (w.effect p fine f.pc).1 := by
  by_cases reads : f.pc.reads
  · rw [reads_still fine reads]
    exact still_moves rfl rfl id
  cases at_ : f.pc with
  | unavailable | settle | exhaust | retire multipart => exact mark_moves (by decide)
  | create | discard | abort | ended => exact still_moves rfl rfl id
  | save multipart =>
    refine revised_moves fun j _ => ?_
    split
    · rename_i free
      rw [free.1]
      exact ⟨rfl,nofun⟩
    exact ⟨forward_refl _,.inl⟩
  | keep =>
    refine revised_moves fun j _ => ?_
    split
    · exact ⟨forward_refl _,.inl⟩
    exact ⟨forward_refl _,.inl⟩
  | fence row =>
    refine revised_moves fun j _ => ?_
    split
    · rename_i wins
      rw [and_eq_true,and_eq_true] at wins
      rw [(holds_facts wins.1.1).1]
      exact ⟨rfl,fun _ => .inr wins.1.2⟩
    exact ⟨forward_refl _,.inl⟩
  | expire =>
    show Moves w (if fine then w else _)
    split
    · exact still_moves rfl rfl id
    refine still_moves rfl rfl fun withdrawn => ?_
    split
    · exact expired_withdrawn
    exact withdrawn
  | send =>
    unfold World.effect
    dsimp only
    split
    · exact still_moves rfl rfl id
    split
    · exact still_moves rfl rfl id
    exact still_moves rfl rfl id
  | complete =>
    unfold World.effect
    dsimp only
    split
    · exact still_moves rfl rfl id
    exact complete_moves good mem at_ _
  | insert source =>
    show Moves w (if w.journal.isSome = true then w else _)
    split
    · exact still_moves rfl rfl id
    rename_i absent
    rw [Bool.not_eq_true,Option.isSome_eq_false_iff,Option.isNone_iff_eq_none] at absent
    refine ⟨fun j is => ?_,fun _ k is => ?_,.inl rfl,id⟩
    · cases absent.symm.trans is
    cases is
    rfl
  | _ =>
    rw [at_] at reads
    exact absurd rfl reads

theorem goes_moves (moves : Moves w v) : Moves w (v.goes name pc) := ⟨moves.journal,moves.created,moves.completions,moves.upload⟩

theorem next_moves (good : Good p w) (is : next p w event = some v) : Moves w v := by
  cases event with
  | start =>
    unfold next at is
    dsimp only at is
    split at is
    · cases is
      exact still_moves rfl rfl id
    cases is
  | call _ outcome fine =>
    obtain ⟨f,found,moved⟩ := Option.bind_eq_some_iff.mp is
    obtain ⟨mem,rfl⟩ := find_some found
    split at moved
    · cases moved
    cases outcome with
    | returns | lost =>
      cases moved
      exact goes_moves (effect_moves good mem fine)
    | fails =>
      cases moved
      exact goes_moves (still_moves rfl rfl id)
  | row upload =>
    unfold next at is
    dsimp only at is
    split at is
    · cases is
    rename_i kept
    cases is
    refine still_moves rfl rfl fun withdrawn => ?_
    rw [and_eq_true,Bool.not_eq_true',not_and,Bool.not_eq_false] at kept
    exact kept withdrawn
  | replaced | moved =>
    cases is
    exact still_moves rfl rfl id

theorem stateIn_iff : w.stateIn states ↔ ∃ j, w.journal = some j ∧ j.state ∈ states := by
  unfold World.stateIn
  rw [Option.any_eq_true]
  exact exists_congr fun j => and_congr_right fun _ => decide_eq_true_iff

theorem fenced_iff : s ∈ [PromotionState.publishing,.ready] ↔ s.fenced := by
  cases s with
  | _ => decide

theorem withdrawn_ineligible {u : UploadRow} (withdrawn : u.withdrawn) : u.eligible = false := by
  cases u with
  | mk status verificationRejected revoked =>
    cases status with
    | quarantined =>
      cases verificationRejected with
      | true => rfl
      | false =>
        cases revoked with
        | true => rfl
        | false => exact absurd withdrawn Bool.false_ne_true
    | _ => rfl

theorem moves_stay (moves : Moves w v) : Stays w v := by
  refine ⟨fun is => ?_,fun is => ?_,fun is => ?_,fun withdrawn => ⟨moves.upload withdrawn,fun is => ?_⟩⟩
  · obtain ⟨j,stored,state⟩ := stateIn_iff.mp is
    obtain ⟨k,there,forward,_⟩ := moves.journal j stored
    refine stateIn_iff.mpr ⟨k,there,fenced_iff.mpr ?_⟩
    rcases mem_cons.mp state with publishing | more
    · rw [publishing] at forward
      exact forward
    rw [mem_singleton.mp more] at forward
    rw [of_decide_eq_true forward]
    rfl
  · obtain ⟨j,stored,state⟩ := stateIn_iff.mp is
    obtain ⟨k,there,forward,_⟩ := moves.journal j stored
    rw [mem_singleton.mp state] at forward
    exact stateIn_iff.mpr ⟨k,there,mem_singleton.mpr (of_decide_eq_true forward)⟩
  · obtain ⟨j,stored,state⟩ := stateIn_iff.mp is
    obtain ⟨k,there,forward,_⟩ := moves.journal j stored
    have stops : (decide (k.state = .unavailable) || decide (k.state = .failed)) ∧ j.state.fenced = false := by
      rcases mem_cons.mp state with unavailable | more
      · rw [unavailable] at forward ⊢
        exact ⟨forward,rfl⟩
      rw [mem_singleton.mp more] at forward ⊢
      exact ⟨forward,rfl⟩
    refine ⟨stateIn_iff.mpr ⟨k,there,?_⟩,moves.completions.resolve_right fun fenced => ?_⟩
    · rw [Bool.or_eq_true,decide_eq_true_eq,decide_eq_true_eq] at stops
      rcases stops.1 with unavailable | failed
      · exact mem_cons.mpr (.inl unavailable)
      exact mem_cons_of_mem _ (mem_singleton.mpr failed)
    obtain ⟨x,is,fenced⟩ := fenced
    cases stored.symm.trans is
    rw [stops.2] at fenced
    cases fenced
  obtain ⟨k,there,state⟩ := stateIn_iff.mp is
  have fenced := fenced_iff.mp state
  cases stored : w.journal with
  | none =>
    rw [moves.created stored k there] at fenced
    cases fenced
  | some j =>
    obtain ⟨x,same,_,back⟩ := moves.journal j stored
    cases there.symm.trans same
    rcases back fenced with before | eligible
    · exact stateIn_iff.mpr ⟨j,stored,fenced_iff.mpr before⟩
    rw [withdrawn_ineligible withdrawn] at eligible
    cases eligible

theorem Stays.trans (first : Stays w v) (second : Stays v u) : Stays w u := by
  refine ⟨fun is => second.published (first.published is),fun is => second.ready (first.ready is),fun is => ?_,fun withdrawn => ?_⟩
  · obtain ⟨state,same⟩ := first.stopped is
    obtain ⟨later,kept⟩ := second.stopped state
    exact ⟨later,kept.trans same⟩
  obtain ⟨still,before⟩ := first.fenced withdrawn
  obtain ⟨later,between⟩ := second.fenced still
  exact ⟨later,fun is => before (between is)⟩
end

variable {p : Provider} {w : World} {upload : UploadRow} {source : Option SourceObject} {events : List Event}

theorem run_good (run : Runs (fun w e v => next p w e = some v) (initial upload source) events w) : Good p w :=
  run.preserves (Good p) (fun _ _ _ good is => next_good good is) (initial_good upload source)

theorem run_stays (good : Good p w) (run : Runs (fun w e v => next p w e = some v) w later v) : Stays w v ∧ Good p v := by
  induction run with
  | nil => exact ⟨⟨id,id,fun is => ⟨is,rfl⟩,fun withdrawn => ⟨withdrawn,id⟩⟩,good⟩
  | step _ last ih => exact ⟨ih.1.trans (moves_stay (next_moves ih.2 last)),next_good ih.2 last⟩

-- A quarantined file is published at most once and exactly, whatever the flows do.
theorem published_exactly (run : Runs (fun w e v => next p w e = some v) (initial upload source) events w) :
    Published p w ∧ ∀ (later : List Event) (v : World), Runs (fun w e v => next p w e = some v) w later v → Stays w v :=
  ⟨good_published (run_good run),fun _ _ more => (run_stays (run_good run) more).1⟩

def store : Provider := ⟨fun _ => [1,2,3],fun _ => "tag"⟩
def calls (name count : Nat) : List Event := replicate count (.call name .returns true)
def promotion : List Event := [.start 0 .begin_]++calls 0 5++[.start 1 .resume]++calls 1 6++[.start 2 .resume]++calls 2 7 ++
  [.start 3 .resume]++calls 3 7

theorem published_exactly_example : ∃ w, Published store w ∧ w.stateIn [.ready] = true ∧ w.completions = [⟨0,[⟨1,"tag"⟩],some [1,2,3]⟩] := by
  refine ⟨_,(@published_exactly store _ ⟨.quarantined,false,false,some "e",some 3,3⟩ (some ⟨"v","e"⟩) promotion (Runs.of_follow rfl)).1,rfl,rfl⟩
end LedgeTopOps.ReadyPromotion
