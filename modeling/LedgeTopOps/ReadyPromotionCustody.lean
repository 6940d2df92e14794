import LedgeTopOps.ReadyPromotionParts

namespace LedgeTopOps.ReadyPromotion
open List KeyedRows StepRuns Bool

def PromotionState.fenced : PromotionState → Bool
  | .publishing | .ready => true
  | .pending | .copying | .unavailable | .failed => false

def Pc.row : Pc → Option JournalRow
  | .eligible row | .basic row _ | .head row | .create row | .fetch row _ | .send row _ _ | .keep row _ _ | .fence row | .complete row | .recover row => some row
  | .resume | .unavailable | .save _ | .discard _ | .settle | .begin_ | .admitted | .origin _ _ _ | .sample _ | .insert _ | .exhaust | .expire | .current
  | .retained | .retire _ | .abort _ | .ended => none

def Pc.completing : Pc → Bool
  | .complete _ => true
  | _ => false

structure Older (row j : JournalRow) : Prop where
  source : row.sourceIdentity = j.sourceIdentity
  multipart : ∀ m, row.multipartUploadId = some m → j.multipartUploadId = some m
  parts : row.parts <+: j.parts

section
variable (p : Provider) (j : JournalRow)

def JournalRow.bytes : Bytes := p.content j.sourceIdentity.objectVersion
def JournalRow.plan : Option MultipartCopyPlan := planIncomingMultipartCopy j.sourceIdentity.bytes

def Agrees : Pc → Prop
  | .fetch row plan => j.plan = some plan ∧ row.parts.length < plan.partCount
  | .send row number bytes => ∃ plan, j.plan = some plan ∧ row.parts.length < plan.partCount ∧ number = row.parts.length + 1 ∧ bytes = plan.range (j.bytes p) number
  | .keep row number etag => ∃ plan, j.plan = some plan ∧ row.parts.length < plan.partCount ∧ number = row.parts.length + 1 ∧
      etag = p.partEtag (plan.range (j.bytes p) number)
  | .fence row => ∃ plan, j.plan = some plan ∧ plan.partCount ≤ row.parts.length
  | .complete row => (∃ plan, j.plan = some plan ∧ plan.partCount ≤ row.parts.length) ∧ j.state.fenced = true
  | _ => True

structure Exact (c : Completion) : Prop where
  multipart : j.multipartUploadId = some c.multipart
  listed : ∃ plan, j.plan = some plan ∧ c.parts = listing p plan (j.bytes p) plan.partCount
  object : ∀ bytes, c.object = some bytes → bytes = j.bytes p

structure Journaled (w : World) : Prop where
  whole : (j.bytes p).length = j.sourceIdentity.bytes
  parts : ∀ plan, j.plan = some plan → j.parts.length ≤ plan.partCount ∧ j.parts = listing p plan (j.bytes p) j.parts.length
  sent : ∀ s ∈ w.sent, j.multipartUploadId = some s.multipart ∧ ∀ plan, j.plan = some plan → s.bytes = plan.range (j.bytes p) s.number
  older : ∀ f ∈ w.flows, ∀ row, f.pc.row = some row → Older row j
  agrees : ∀ f ∈ w.flows, Agrees p j f.pc
  idle : j.state.fenced = false → w.completions = []
  once : w.completions.length ≤ 1
  free : ∀ f ∈ w.flows, f.pc.completing = true → w.completions = []
  single : ∀ f ∈ w.flows, ∀ g ∈ w.flows, f.pc.completing = true → g.pc.completing = true → f = g
  done : ∀ c ∈ w.completions, Exact p j c
end

def Begins (p : Provider) : Pc → Prop
  | .sample source | .insert source => (p.content source.objectVersion).length = source.bytes
  | _ => True

structure Good (p : Provider) (w : World) : Prop where
  named : Keyed Flow.name w.flows
  begins : ∀ f ∈ w.flows, Begins p f.pc
  fresh : w.journal = none → w.completions = [] ∧ w.sent = [] ∧ ∀ f ∈ w.flows, f.pc.row = none
  journal : ∀ j, w.journal = some j → Journaled p j w

section
variable {w : World}

theorem mem_goes (named : Keyed Flow.name w.flows) (mem : f ∈ w.flows) (moved : g ∈ (w.goes f.name pc).flows) :
    (g ∈ w.flows ∧ g.name ≠ f.name) ∨ g = { f with pc := pc } := by
  rcases mem_amend.mp moved with old | ⟨old,there,same,rfl⟩
  · exact .inl old
  cases named.unique there mem same
  exact .inr rfl

theorem goes_good (good : Good p w) (mem : f ∈ w.flows) (begins : Begins p pc) (rowless : w.journal = none → pc.row = none)
    (agrees : ∀ j, w.journal = some j → (∀ row, pc.row = some row → Older row j) ∧ Agrees p j pc) (other : pc.completing = false) : Good p (w.goes f.name pc) := by
  have held : ∀ holds : Pc → Prop, (∀ g ∈ w.flows, holds g.pc) → holds pc → ∀ g ∈ (w.goes f.name pc).flows, holds g.pc := fun holds all new g moved => by
    rcases mem_goes good.named mem moved with ⟨old,_⟩ | rfl
    · exact all g old
    exact new
  refine ⟨good.named.amend _ fun _ _ _ => rfl,held (Begins p) good.begins begins,fun none => ?_,fun j is => ?_⟩
  · obtain ⟨completions,sent,rows⟩ := good.fresh none
    exact ⟨completions,sent,held (·.row = .none) rows (rowless none)⟩
  have journal := good.journal j is
  obtain ⟨older,agree⟩ := agrees j is
  refine ⟨journal.whole,journal.parts,journal.sent,held (fun pc => ∀ row, pc.row = some row → Older row j) journal.older older,
    held (Agrees p j) journal.agrees agree,journal.idle,journal.once,?_,?_,journal.done⟩
  · exact held (fun pc => pc.completing → w.completions = []) journal.free fun completing => by
      rw [other] at completing
      cases completing
  intro g first h second
  rcases mem_goes good.named mem first with ⟨old,_⟩ | rfl
  · rcases mem_goes good.named mem second with ⟨there,_⟩ | rfl
    · exact journal.single g old h there
    · exact fun _ completing => by
        rw [show ({ f with pc := pc } : Flow).pc.completing = false from other] at completing
        cases completing
  exact fun completing => by
    rw [show ({ f with pc := pc } : Flow).pc.completing = false from other] at completing
    cases completing

theorem ends_good (good : Good p w) (mem : f ∈ w.flows) : Good p (w.goes f.name .ended) :=
  goes_good good mem trivial (fun _ => rfl) (fun _ _ => ⟨nofun,trivial⟩) rfl

theorem still_good (good : Good p w) (flows : v.flows = w.flows) (journal : v.journal = w.journal) (sent : v.sent = w.sent)
    (completions : v.completions = w.completions) : Good p v := by
  obtain ⟨a,b,c,d,e,f,g,h,i,k⟩ := v
  cases flows
  cases journal
  cases sent
  cases completions
  refine ⟨good.named,good.begins,good.fresh,fun j is => ?_⟩
  have journal := good.journal j is
  exact ⟨journal.whole,journal.parts,journal.sent,journal.older,journal.agrees,journal.idle,journal.once,journal.free,journal.single,journal.done⟩
end

variable {change : JournalRow → JournalRow}

theorem agrees_revised (source : (change j).sourceIdentity = j.sourceIdentity)
    (fenced : j.state.fenced → (change j).state.fenced) (agrees : Agrees p j pc) : Agrees p (change j) pc := by
  have plan : (change j).plan = j.plan := congrArg (fun s => planIncomingMultipartCopy (SourceIdentity.bytes s)) source
  have bytes : (change j).bytes p = j.bytes p := congrArg (fun s => p.content (SourceIdentity.objectVersion s)) source
  cases pc with
  | fetch | send | keep | fence =>
    simp only [Agrees,plan,bytes] at agrees ⊢
    exact agrees
  | complete =>
    simp only [Agrees,plan] at agrees ⊢
    exact ⟨agrees.1,fenced agrees.2⟩
  | _ => exact trivial

theorem revised_good (good : Good p w) (source : ∀ j, w.journal = some j → (change j).sourceIdentity = j.sourceIdentity)
    (multipart : ∀ j, w.journal = some j → ∀ m, j.multipartUploadId = some m → (change j).multipartUploadId = some m)
    (prefix_ : ∀ j, w.journal = some j → j.parts <+: (change j).parts)
    (parts : ∀ j plan, w.journal = some j → j.plan = some plan → (change j).parts.length ≤ plan.partCount ∧
      (change j).parts = listing p plan (j.bytes p) (change j).parts.length)
    (fenced : ∀ j, w.journal = some j → j.state.fenced → (change j).state.fenced) : Good p (w.revise change) := by
  refine ⟨good.named,good.begins,fun none => ?_,fun j is => ?_⟩
  · exact good.fresh (Option.map_eq_none_iff.mp none)
  obtain ⟨old,there,rfl⟩ := Option.map_eq_some_iff.mp is
  have journal := good.journal old there
  have same := source old there
  have plan : (change old).plan = old.plan := congrArg (fun s => planIncomingMultipartCopy (SourceIdentity.bytes s)) same
  have bytes : (change old).bytes p = old.bytes p := congrArg (fun s => p.content (SourceIdentity.objectVersion s)) same
  refine ⟨?_,?_,?_,fun f mem row at_ => ?_,fun f mem => agrees_revised same (fenced old there) (journal.agrees f mem),fun idle => ?_,journal.once,
    journal.free,journal.single,fun c mem => ?_⟩
  · rw [bytes,same]
    exact journal.whole
  · rw [plan,bytes]
    exact fun plan is => parts old plan there is
  · rw [plan,bytes]
    exact fun s mem => ⟨multipart old there _ (journal.sent s mem).1,(journal.sent s mem).2⟩
  · have older := journal.older f mem row at_
    exact ⟨older.source.trans same.symm,fun m is => multipart old there m (older.multipart m is),older.parts.trans (prefix_ old there)⟩
  · refine journal.idle ?_
    by_contra is
    rw [not_eq_false] at is
    rw [fenced old there is] at idle
    cases idle
  have exact_ := journal.done c mem
  refine ⟨multipart old there _ exact_.multipart,?_,?_⟩
  · rw [plan,bytes]
    exact exact_.listed
  rw [bytes]
  exact exact_.object

theorem mark_good (good : Good p w) (fenced : ∀ s ∈ states, s.fenced → state.fenced) : Good p (w.mark state states) := by
  have kept : ∀ j : JournalRow, (if j.state ∈ states then { j with state := state } else j).sourceIdentity = j.sourceIdentity ∧
      (if j.state ∈ states then { j with state := state } else j).multipartUploadId = j.multipartUploadId ∧
      (if j.state ∈ states then { j with state := state } else j).parts = j.parts := fun j => by
    split
    · exact ⟨rfl,rfl,rfl⟩
    exact ⟨rfl,rfl,rfl⟩
  refine revised_good good (fun j _ => (kept j).1) (fun j _ m is => (kept j).2.1.trans is) (fun j _ => ?_) (fun j plan is planned => ?_) fun j _ is => ?_
  · exact ⟨[],by rw [append_nil,(kept j).2.2]⟩
  · rw [(kept j).2.2]
    exact (good.journal j is).parts plan planned
  split
  · rename_i marked
    exact fenced j.state marked is
  exact is

theorem save_good (good : Good p w) : Good p (w.save multipart) := by
  refine revised_good good (fun j _ => ?_) (fun j _ m is => ?_) (fun j _ => ?_) (fun j plan is planned => ?_) fun j _ is => ?_
  · split
    · rfl
    · rfl
  · split
    · rename_i free
      rw [free.2] at is
      cases is
    · exact is
  · split
    · exact prefix_rfl
    · exact prefix_rfl
  · split
    · exact (good.journal j is).parts plan planned
    · exact (good.journal j is).parts plan planned
  split
  · rename_i free
    rw [free.1] at is
    cases is
  exact is

theorem holds_facts {j row : JournalRow} (holds : j.holds row) : j.state = .copying ∧ j.multipartUploadId = row.multipartUploadId ∧ j.parts = row.parts := by
  unfold JournalRow.holds at holds
  rw [and_eq_true,and_eq_true,decide_eq_true_eq,decide_eq_true_eq,decide_eq_true_eq] at holds
  exact ⟨holds.1.1,holds.1.2,holds.2⟩

theorem keep_good {row : JournalRow} (good : Good p w) (agrees : ∀ j, w.journal = some j → Agrees p j (.keep row number etag)) :
    Good p (w.keep row ⟨number,etag⟩) := by
  refine revised_good good (fun j _ => ?_) (fun j _ m is => ?_) (fun j _ => ?_) (fun j plan is planned => ?_) fun j _ is => ?_
  · split
    · rfl
    · rfl
  · split
    · exact is
    · exact is
  · split
    · rename_i holds
      rw [(holds_facts holds).2.2]
      exact prefix_append _ _
    · exact prefix_rfl
  · have before := (good.journal j is).parts plan planned
    split
    · rename_i holds
      obtain ⟨_,same,less,rfl,rfl⟩ := agrees j is
      cases planned.symm.trans same
      have listed := (holds_facts holds).2.2
      rw [listed] at before
      rw [length_append,length_singleton]
      refine ⟨less,?_⟩
      rw [listing_next,←before.2]
    exact before
  split
  · rename_i holds
    rw [(holds_facts holds).1] at is
    cases is
  · exact is

theorem fence_good (good : Good p w) : Good p (w.fence row timely) := by
  refine revised_good good (fun j _ => ?_) (fun j _ m is => ?_) (fun j _ => ?_) (fun j plan is planned => ?_) fun j _ is => ?_
  · split
    · rfl
    · rfl
  · split
    · exact is
    · exact is
  · split
    · exact prefix_rfl
    · exact prefix_rfl
  · split
    · exact (good.journal j is).parts plan planned
    · exact (good.journal j is).parts plan planned
  split
  · rfl
  exact is
end LedgeTopOps.ReadyPromotion
