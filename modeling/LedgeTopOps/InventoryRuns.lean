import LedgeTopOps.InventoryCustody

namespace LedgeTopOps.InventoryObservations
open Prod hiding map_map
open List KeyedRows StepRuns InventoryReaders
open Bool (and_eq_true not_eq_true')

def Page.row (page : Page) (item : Item) : Observation := ⟨page.identity,page.requestId,item⟩

structure Page.Proper (page : Page) : Prop where
  kinds : ∀ item ∈ page.items, item.kind = page.kind
  checks : ∀ item ∈ page.items, item.check = true
  keys : (page.items.map fun item => (item.type,item.publicId)).Nodup

def Tables.Noticed (t : Tables) (rows : List Observation) : Prop :=
  rows.Pairwise fun prior row => prior.identity = row.identity → prior.item.type = row.item.type → Contradict prior.item row.item → t.Noted row.request

structure Kept (t : Tables) : Prop where
  receipts : Keyed Receipt.request t.receipts
  stored : ∀ receipt ∈ t.receipts, t.itemsOf receipt.page = receipt.page.items
  owned : ∀ row ∈ t.observations, ∃ receipt ∈ t.receipts, receipt.request = row.request
  noticed : t.Noticed t.observations

section
variable {t v : Tables} {page : Page}

theorem noticed_mono (noticed : t.Noticed rows) (grown : t.conflicts <+: v.conflicts) : v.Noticed rows :=
  noticed.imp fun known identity type contradict => (known identity type contradict).mono grown

theorem observed_grown (t : Tables) (row : Observation) : Grown { t with observations := t.observations++[row] } (t.observed row) :=
  (fires_grown _ _ _).trans (flag_grown _ _ _)

theorem observed_noticed (noticed : t.Noticed t.observations) : (t.observed row).Noticed (t.observed row).observations := by
  have grown := observed_grown t row
  rw [grown.observations]
  refine pairwise_append.mpr ⟨noticed_mono noticed grown.conflicts,pairwise_singleton _ _,fun prior there other is => ?_⟩
  cases mem_singleton.mp is
  intro identity type contradict
  obtain ⟨trigger,listed,fires⟩ := contradiction_fires type contradict
  have noted : ((triggers row.item.kind).foldl (fun (t : Tables) trigger => t.fire trigger row)
      { t with observations := t.observations++[row] }).Noted row.request :=
    fires_noted listed (mem_append_left _ there) identity type fires
  exact noted.mono (flag_grown _ _ _).conflicts

theorem insert_skipped (skip : ¬(t.receipts.any (fun receipt => receipt.request = page.request && receipt.page = page)) ∨
    t.observations.any (·.key = (page.row item).key)) : observationInsert page t item = t := by
  unfold observationInsert
  rcases skip with absent | known
  · exact if_neg absent
  split
  · exact if_neg fun taken => by
      rw [and_eq_true,not_eq_true'] at taken
      exact absurd known (by
        rw [show t.observations.any (·.key = (page.row item).key) = false from taken.2]
        exact Bool.false_ne_true)
  rfl

theorem inserts_skipped {items : List Item} (skip : ∀ item ∈ items, ¬(t.receipts.any (fun receipt => receipt.request = page.request && receipt.page = page)) ∨
    t.observations.any (·.key = (page.row item).key)) : items.foldl (fun t item => observationInsert page t item) t = t := by
  induction items with
  | nil => rfl
  | cons item _ ih =>
    rw [foldl_cons,insert_skipped (skip item (.head _))]
    exact ih fun other mem => skip other (.tail _ mem)

theorem inserts_fresh {items : List Item} (receipt : t.receipts.any (fun receipt => receipt.request = page.request && receipt.page = page))
    (checks : ∀ item ∈ items, item.check) (fresh : ∀ item ∈ items, ∀ row ∈ t.observations, row.key ≠ (page.row item).key)
    (keys : (items.map fun item => (item.type,item.publicId)).Nodup) (noticed : t.Noticed t.observations) :
    ∃ v, items.foldl (fun t item => observationInsert page t item) t = v ∧ v.receipts = t.receipts ∧
      v.observations = t.observations++items.map page.row ∧ t.conflicts <+: v.conflicts ∧ v.Noticed v.observations := by
  induction items generalizing t with
  | nil => exact ⟨t,rfl,rfl,(append_nil _).symm,prefix_rfl,noticed⟩
  | cons item _ ih =>
    obtain ⟨apart,keys⟩ := nodup_cons.mp keys
    have new : t.observations.any (·.key = (page.row item).key) = false :=
      any_eq_false.mpr fun row mem same => fresh item (.head _) row mem (of_decide_eq_true same)
    have stored : observationInsert page t item = t.observed (page.row item) := by
      unfold observationInsert
      rw [if_pos receipt]
      refine if_pos ?_
      rw [and_eq_true,not_eq_true']
      exact ⟨checks item (.head _),new⟩
    have grown := observed_grown t (page.row item)
    obtain ⟨v,folded,receipts,observations,conflicts,compared⟩ := ih (t := t.observed (page.row item)) (grown.receipts ▸ receipt)
      (fun other mem => checks other (.tail _ mem)) (fun other mem row there => by
        rw [grown.observations] at there
        rcases mem_snoc.mp there with old | rfl
        · exact fresh other (.tail _ mem) row old
        intro same
        refine apart (mem_map.mpr ⟨other,mem,?_⟩)
        exact ((mk.inj (mk.inj same).2).2).symm) keys (observed_noticed noticed)
    refine ⟨v,?_,receipts.trans grown.receipts,?_,grown.conflicts.trans conflicts,compared⟩
    · rw [foldl_cons,stored]
      exact folded
    rw [observations,grown.observations,append_assoc]
    rfl

theorem reuse_grown (page : Page) (t : Tables) : Grown t (requestReuseConflict page t) := by
  unfold requestReuseConflict
  split
  · exact record_grown _ _
  exact Grown.refl t

theorem receipt_inserted (page : Page) (now : Nat) (t : Tables) : receiptInsert page now t = t ∨
    (∀ receipt ∈ t.receipts, receipt.request ≠ page.request) ∧ Grown { t with receipts := t.receipts++[⟨page,now⟩] } (receiptInsert page now t) := by
  unfold receiptInsert
  dsimp only
  split
  · rename_i taken
    rw [and_eq_true,not_eq_true',any_eq_false] at taken
    exact .inr ⟨fun receipt mem same => taken.2 receipt mem (decide_eq_true same),(flag_grown _ _ _).trans (flag_grown _ _ _)⟩
  exact .inl rfl

inductive Batched (page : Page) (now : Nat) (t v : Tables) : Prop where
  | again (grown : Grown t v)
  | stored (fresh : ∀ receipt ∈ t.receipts, receipt.request ≠ page.request) (receipts : v.receipts = t.receipts++[⟨page,now⟩])
      (observations : v.observations = t.observations++page.items.map page.row) (conflicts : t.conflicts <+: v.conflicts)
      (noticed : v.Noticed v.observations)

theorem row_request (proper : page.Proper) (mem : item ∈ page.items) : (page.row item).request = page.request := by
  show (page.identity,item.kind,page.requestId) = (page.identity,page.kind,page.requestId)
  rw [proper.kinds item mem]

theorem mem_itemsOf : item ∈ t.itemsOf page ↔ ∃ row ∈ t.observations, row.request = page.request ∧ row.item = item := by
  simp only [Tables.itemsOf,mem_map,mem_filter,decide_eq_true_eq,and_assoc]

theorem batch_cases (kept : Kept t) (proper : page.Proper) (now : Nat) : Batched page now t (batch page now t) := by
  have reuse := reuse_grown page t
  unfold batch
  rcases receipt_inserted page now (requestReuseConflict page t) with same | ⟨fresh,grown⟩
  · rw [same,inserts_skipped]
    · exact .again reuse
    · intro item mem
      by_cases known : (requestReuseConflict page t).receipts.any (fun receipt => receipt.request = page.request && receipt.page = page)
      · right
        rw [reuse.receipts] at known
        obtain ⟨receipt,there,is⟩ := any_eq_true.mp known
        have own : receipt.page = page := of_decide_eq_true (and_eq_true _ _ ▸ is).2
        have held : item ∈ t.itemsOf page := by
          rw [←own,kept.stored receipt there,own]
          exact mem
        obtain ⟨row,stored,request,same⟩ := mem_itemsOf.mp held
        rw [reuse.observations]
        refine any_eq_true.mpr ⟨row,stored,decide_eq_true ?_⟩
        unfold Observation.key Page.row
        rw [(mk.inj request).1,(mk.inj (mk.inj request).2).2,same]
      exact .inl known
  rw [reuse.receipts] at fresh
  have receipts : (receiptInsert page now (requestReuseConflict page t)).receipts = t.receipts++[⟨page,now⟩] := by
    rw [grown.receipts,reuse.receipts]
  have observations : (receiptInsert page now (requestReuseConflict page t)).observations = t.observations :=
    grown.observations.trans reuse.observations
  have conflicts : t.conflicts <+: (receiptInsert page now (requestReuseConflict page t)).conflicts := reuse.conflicts.trans grown.conflicts
  have known : (receiptInsert page now (requestReuseConflict page t)).receipts.any (fun receipt => receipt.request = page.request && receipt.page = page) := by
    rw [receipts]
    refine any_eq_true.mpr ⟨⟨page,now⟩,mem_append_right _ (mem_singleton_self _),?_⟩
    rw [and_eq_true]
    exact ⟨decide_eq_true rfl,decide_eq_true rfl⟩
  obtain ⟨v,folded,sameReceipts,stored,more,compared⟩ := inserts_fresh known proper.checks (fun item mem row there same => by
      rw [observations] at there
      obtain ⟨receipt,held,owner⟩ := kept.owned row there
      refine fresh receipt held (owner.trans ?_)
      have kinds : row.item.kind = page.kind := by
        rw [←proper.kinds item mem]
        exact kind_of_type (mk.inj (mk.inj (mk.inj same).2).2).1
      show (row.identity,row.item.kind,row.requestId) = (page.identity,page.kind,page.requestId)
      rw [kinds,show row.identity = page.identity from (mk.inj same).1,
        show row.requestId = page.requestId from (mk.inj (mk.inj same).2).1])
    proper.keys (by
      rw [observations]
      exact noticed_mono kept.noticed conflicts)
  rw [folded]
  exact .stored fresh (sameReceipts.trans receipts) (by rw [stored,observations]) (conflicts.trans more) compared
end

section
variable {control : Char → Bool} {w : World} {page : Page}

theorem Batched.receipts (batched : Batched page now t u) : t.receipts <+: u.receipts := by
  cases batched with
  | again grown => exact grown.receipts ▸ prefix_rfl
  | stored _ receipts => exact receipts ▸ prefix_append _ _

theorem itemsOf_rows (proper : page.Proper) : ((page.items.map page.row).filter (·.request = page.request)).map Observation.item = page.items := by
  rw [filter_eq_self.mpr fun row mem => ?_]
  · rw [map_map]
    exact map_id'' (fun _ => rfl) _
  · obtain ⟨_,there,rfl⟩ := mem_map.mp mem
    exact decide_eq_true (row_request proper there)

theorem batched_kept (kept : Kept t) (proper : page.Proper) (batched : Batched page now t u) : Kept u := by
  cases batched with
  | again grown =>
    have items : ∀ page, u.itemsOf page = t.itemsOf page := fun page => by
      unfold Tables.itemsOf
      rw [grown.observations]
    refine ⟨grown.receipts ▸ kept.receipts,fun receipt mem => ?_,fun row mem => ?_,?_⟩
    · rw [grown.receipts] at mem
      exact (items _).trans (kept.stored receipt mem)
    · rw [grown.observations] at mem
      rw [grown.receipts]
      exact kept.owned row mem
    rw [grown.observations]
    exact noticed_mono kept.noticed grown.conflicts
  | stored fresh receipts observations _ noticed =>
    have unowned : ∀ row ∈ t.observations, row.request ≠ page.request := fun row mem same => by
      obtain ⟨receipt,there,owner⟩ := kept.owned row mem
      exact fresh receipt there (owner.trans same)
    refine ⟨receipts ▸ kept.receipts.add fresh,fun receipt mem => ?_,fun row mem => ?_,noticed⟩
    · rw [receipts] at mem
      unfold Tables.itemsOf
      rw [observations,filter_append,map_append]
      rcases mem_snoc.mp mem with old | rfl
      · have others : (page.items.map page.row).filter (·.request = receipt.page.request) = [] :=
          filter_eq_nil_iff.mpr fun row there is => by
            obtain ⟨_,given,rfl⟩ := mem_map.mp there
            exact fresh receipt old ((of_decide_eq_true is).symm.trans (row_request proper given))
        rw [others,map_nil,append_nil]
        exact kept.stored receipt old
      have others : t.observations.filter (·.request = page.request) = [] :=
        filter_eq_nil_iff.mpr fun row there is => unowned row there (of_decide_eq_true is)
      rw [others,map_nil,nil_append]
      exact itemsOf_rows proper
    rw [observations] at mem
    rw [receipts]
    rcases mem_append.mp mem with old | new
    · obtain ⟨receipt,there,owner⟩ := kept.owned row old
      exact ⟨receipt,mem_append_left _ there,owner⟩
    obtain ⟨_,given,rfl⟩ := mem_map.mp new
    exact ⟨_,mem_append_right _ (mem_singleton_self _),(row_request proper given).symm⟩

theorem batched_uncontradicted (proper : page.Proper) (batched : Batched page now t u)
    (bound : ∃ receipt ∈ t.receipts, receipt.page = other) (clean : t.Uncontradicted other) : u.Uncontradicted other := by
  cases batched with
  | again grown =>
    unfold Tables.Uncontradicted
    rw [grown.observations]
    exact clean
  | stored fresh _ observations _ _ =>
    obtain ⟨receipt,there,rfl⟩ := bound
    have apart : ∀ row ∈ page.items.map page.row, row.request ≠ receipt.page.request := fun row mem same => by
      obtain ⟨_,given,rfl⟩ := mem_map.mp mem
      exact fresh receipt there (same.symm.trans (row_request proper given))
    unfold Tables.Uncontradicted
    rw [observations]
    refine pairwise_append.mpr ⟨clean,?_,fun prior _ row mem same => absurd same (apart row mem)⟩
    exact pairwise_of_forall_mem_list fun prior _ row mem same => absurd same (apart row mem)

def Stage.bound : Stage → Bool
  | .counting _ | .answered (.persisted _ _) | .answered (.conflicted _ _) => true
  | _ => false

structure Sound (w : World) : Prop where
  tables : Kept w.tables
  proper : ∀ call ∈ w.calls, call.page.Proper
  held : ∀ call ∈ w.calls, call.stage.bound = true → ∃ receipt ∈ w.tables.receipts, receipt.page = call.page
  clean : ∀ call ∈ w.calls, ∀ items conflicts, call.stage = .answered (.persisted items conflicts) →
    w.tables.Uncontradicted call.page ∧ call.page.Consistent

theorem tables_sound (sound : Sound w) (proper : page.Proper) (batched : Batched page now w.tables t) : Sound { w with tables := t } where
  tables := batched_kept sound.tables proper batched
  proper := sound.proper
  held call mem bound := by
    obtain ⟨receipt,there,same⟩ := sound.held call mem bound
    exact ⟨receipt,batched.receipts.subset there,same⟩
  clean call mem items conflicts is := by
    have bound : call.stage.bound := by
      rw [is]
      rfl
    exact (sound.clean call mem items conflicts is).imp_left (batched_uncontradicted proper batched (sound.held call mem bound))

theorem goes_sound (sound : Sound w) (at_ : w.calls[place]? = some call) (bound : stage.bound → ∃ receipt ∈ w.tables.receipts, receipt.page = call.page)
    (clean : ∀ items conflicts, stage = .answered (.persisted items conflicts) → w.tables.Uncontradicted call.page ∧ call.page.Consistent) :
    Sound (w.goes place call stage) := by
  have mem := mem_of_getElem? at_
  refine ⟨sound.tables,fun other there => ?_,fun other there => ?_,fun other there => ?_⟩
  · rcases mem_or_eq_of_mem_set there with old | rfl
    · exact sound.proper other old
    · exact sound.proper call mem
  · rcases mem_or_eq_of_mem_set there with old | rfl
    · exact sound.held other old
    · exact bound
  rcases mem_or_eq_of_mem_set there with old | rfl
  · exact sound.clean other old
  exact clean

theorem unrecorded (kept : Kept t) (none : conflictCount page t = 0) : t.Uncontradicted page :=
  kept.noticed.imp fun noticed request identity type contradict => by
    obtain ⟨_,mem,same⟩ := noticed identity type contradict
    have empty := length_eq_zero_iff.mp none
    exact not_mem_nil (empty ▸ mem_filter.mpr ⟨mem,decide_eq_true (same.trans request)⟩)

theorem consistent_of_uncontradicted (kept : Kept t) (bound : ∃ receipt ∈ t.receipts, receipt.page = page) (clean : t.Uncontradicted page) :
    page.Consistent := by
  obtain ⟨receipt,there,rfl⟩ := bound
  have filtered : (t.observations.filter (·.request = receipt.page.request)).Pairwise fun prior row =>
      prior.item.type = row.item.type → ¬Contradict prior.item row.item := by
    refine (pairwise_filter.mpr (clean.imp fun {prior row} apart mine its => ?_))
    have priors := of_decide_eq_true mine
    have rows := of_decide_eq_true its
    exact apart rows ((mk.inj priors).1.trans (mk.inj rows).1.symm)
  have ordered : receipt.page.items.Pairwise fun one other => one.type = other.type → ¬Contradict one other := by
    rw [←kept.stored receipt there]
    exact pairwise_map.mpr filtered
  intro one first other second type contradict
  have reversed : receipt.page.items.Pairwise (flip fun one other => one.type = other.type → ¬Contradict one other) :=
    ordered.imp fun apart type contradict => apart type.symm contradict.symm
  exact ordered.forall_of_forall_of_flip (fun item _ _ => Contradict.irrefl item) reversed first second type contradict

theorem read_sound (sound : Sound w) (at_ : w.calls[place]? = some call) (works : Bool) :
    Sound (w.goes place call (if works then w.receiptRead call.page else .answered .blocked)) := by
  refine goes_sound sound at_ (fun bound => ?_) (fun items conflicts is => ?_)
  · unfold World.receiptRead at bound
    split at bound
    · split at bound
      · rename_i receipt found
        split at bound
        · exact ⟨receipt,(find_some found).1,‹_›⟩
        cases bound
      · cases bound
    cases bound
  unfold World.receiptRead at is
  split at is
  · split at is
    · split at is <;> cases is
    · cases is
  cases is

theorem count_sound (sound : Sound w) (at_ : w.calls[place]? = some call) (stage : call.stage = .counting itemCount) (works : Bool) :
    Sound (w.goes place call (.answered (if works then persistedPageResult (conflictCount call.page w.tables) itemCount else .blocked))) := by
  have bound : ∃ receipt ∈ w.tables.receipts, receipt.page = call.page :=
    sound.held call (mem_of_getElem? at_) (by rw [stage]; rfl)
  refine goes_sound sound at_ (fun _ => bound) (fun items conflicts is => ?_)
  split at is
  · unfold persistedPageResult at is
    split at is
    · rename_i none
      have clean := unrecorded sound.tables none
      exact ⟨clean,consistent_of_uncontradicted sound.tables bound clean⟩
    cases is
  cases is

theorem directory_proper (nul : control '\x00') {cursor : Option Text} (accepted : inventorySuccess control query connection requestId body) :
    (canonicalDirectoryPage sourceId body cursor).Proper := by
  simp only [inventorySuccess,and_eq_true] at accepted
  have valid := accepted.1.2
  refine ⟨fun item mem => ?_,fun item mem => ?_,?_⟩
  · obtain ⟨_,_,rfl⟩ := mem_map.mp mem
    rfl
  · obtain ⟨resource,there,rfl⟩ := mem_map.mp mem
    exact resource_check nul (resources_valid valid resource there)
  show ((body.items.map Item.resource).map fun item => (item.type,item.publicId)).Nodup
  rw [map_map]
  have distinct := resources_distinct valid
  refine pairwise_map.mpr ((pairwise_map.mp distinct).imp fun apart same => apart ?_)
  exact Prod.ext (resourceType_injective (Prod.mk.inj same).1) (Prod.mk.inj same).2

theorem project_proper (nul : control '\x00') {cursor : Option Text} (accepted : valid control limit connection requestId body)
    (apart : (body.items.map Project.publicId).Nodup) : (canonicalProjectPage sourceId body cursor).Proper := by
  simp only [valid,and_eq_true] at accepted
  refine ⟨fun item mem => ?_,fun item mem => ?_,?_⟩
  · obtain ⟨_,_,rfl⟩ := mem_map.mp mem
    rfl
  · obtain ⟨project,there,rfl⟩ := mem_map.mp mem
    exact project_check nul (projects_valid accepted.1.2 project there)
  show ((body.items.map Item.project).map fun item => (item.type,item.publicId)).Nodup
  rw [map_map]
  exact pairwise_map.mpr ((pairwise_map.mp apart).imp fun different same => different (mk.inj same).2)

theorem start_sound (sound : Sound w) (proper : page.Proper) : Sound { w with calls := w.calls++[⟨page,.writing⟩] } := by
  refine ⟨sound.tables,fun call mem => ?_,fun call mem => ?_,fun call mem => ?_⟩
  · rcases mem_snoc.mp mem with old | rfl
    · exact sound.proper call old
    · exact proper
  · rcases mem_snoc.mp mem with old | rfl
    · exact sound.held call old
    · exact nofun
  rcases mem_snoc.mp mem with old | rfl
  · exact sound.clean call old
  exact fun _ _ => nofun

theorem step_sound (nul : control '\x00') (sound : Sound w) (apart : distinct action) (moved : next control w action = some v) :
    Sound v ∧ w.tables.receipts <+: v.tables.receipts := by
  cases action with
  | directory =>
    obtain ⟨accepted,taken⟩ := Option.ite_none_right_eq_some.mp moved
    cases taken
    exact ⟨start_sound sound (directory_proper nul accepted),prefix_rfl⟩
  | project =>
    obtain ⟨accepted,taken⟩ := Option.ite_none_right_eq_some.mp moved
    cases taken
    exact ⟨start_sound sound (project_proper nul accepted (of_decide_eq_true apart)),prefix_rfl⟩
  | write _ now outcome =>
    obtain ⟨call,at_,taken⟩ := Option.bind_eq_some_iff.mp moved
    obtain ⟨_,is⟩ := Option.ite_none_right_eq_some.mp taken
    cases is
    have proper := sound.proper call (mem_of_getElem? at_)
    have batched := batch_cases sound.tables proper now
    have written := tables_sound sound proper batched
    cases outcome with
    | returns | lost => exact ⟨goes_sound written at_ nofun (fun _ _ => nofun),batched.receipts⟩
    | fails => exact ⟨goes_sound sound at_ nofun (fun _ _ => nofun),prefix_rfl⟩
  | read _ works =>
    obtain ⟨_,at_,taken⟩ := Option.bind_eq_some_iff.mp moved
    obtain ⟨_,is⟩ := Option.ite_none_right_eq_some.mp taken
    cases is
    exact ⟨read_sound sound at_ works,prefix_rfl⟩
  | count place works =>
    obtain ⟨call,at_,taken⟩ := Option.bind_eq_some_iff.mp moved
    split at taken
    · rename_i itemCount stage
      cases taken
      exact ⟨count_sound sound at_ stage works,prefix_rfl⟩
    cases taken
  | map =>
    cases moved
    exact ⟨⟨⟨sound.tables.receipts,sound.tables.stored,sound.tables.owned,sound.tables.noticed⟩,sound.proper,sound.held,sound.clean⟩,prefix_rfl⟩

theorem initial_sound : Sound initial :=
  ⟨⟨nodup_nil,fun _ mem => (not_mem_nil mem).elim,fun _ mem => (not_mem_nil mem).elim,.nil⟩,
    fun _ mem => (not_mem_nil mem).elim,fun _ mem => (not_mem_nil mem).elim,fun _ mem => (not_mem_nil mem).elim⟩

theorem Sound.evidence (sound : Sound w) : Evidence w where
  bound := sound.tables.receipts
  complete call mem items conflicts answered := by
    have bound : call.stage.bound := by
      rcases answered with is | is
      · rw [is]
        rfl
      rw [is]
      rfl
    obtain ⟨receipt,there,same⟩ := sound.held call mem bound
    rw [←same]
    exact sound.tables.stored receipt there
  noticed := sound.clean
end

section
variable {control : Char → Bool} {w v : World} {actions later : List Action}

def step (control : Char → Bool) (w : World) (action : Action) (v : World) : Prop := next control w action = some v

abbrev Distinct (_ : World) (action : Action) : Prop := distinct action = true

theorem run_sound (nul : control '\x00') (sound : Sound w) (run : Runs (Guarded (step control) Distinct) w actions v) :
    Sound v ∧ w.tables.receipts <+: v.tables.receipts :=
  run.preserves (fun v => Sound v ∧ w.tables.receipts <+: v.tables.receipts)
    (fun _ _ _ kept moved => by
      obtain ⟨sound,grown⟩ := step_sound nul kept.1 moved.2 moved.1
      exact ⟨sound,kept.2.trans grown⟩)
    ⟨sound,prefix_rfl⟩

end

def someRequest : Text := "01234567-89ab-4def-8123-456789abcdef".toList
def someSource : Text := "project-alpha:x".toList
def someControl (c : Char) : Bool := decide (c.toNat < 32) || (decide (127 ≤ c.toNat) && decide (c.toNat < 160))

def someProject (externalId publicId : Char) : Project :=
  ⟨[externalId],replicate 32 publicId,['1'],replicate 64 '0',.active,false⟩

def paged (second : Char) : List Action :=
  let connection : Connection := ⟨replicate 36 's',replicate 36 'a',replicate 36 'h'⟩
  [.project someSource 100 connection (some someRequest)
      ⟨connection.expectedSourceInstanceId,connection.expectedApplicationId,connection.expectedHistoryEpoch,someRequest,['0'],
        [someProject 'a' 'a',someProject 'b' second],none⟩ none,
    .write 0 1 .returns,.read 0 true,.count 0 true]

def pagedWorld (second : Char) : World := (follow (next someControl) initial (paged second)).getD initial

end LedgeTopOps.InventoryObservations
