import LedgeTopOps.CatalogEffects

namespace LedgeTopOps.CatalogMirror
open List KeyedRows UpsertedRows

section
variable {items : List Item}

theorem upsertRows_check (done : items.foldlM (fun (t : Tables) item => t.upsertRow item) t = some u) : ∀ item ∈ items, item.check := by
  refine foldlM_rec (fun (done : List Item) (_ : Tables) => ∀ item ∈ done, item.check) (fun _ none => (not_mem_nil none).elim) ?_ done
  intro _ _ _ v w _ holds moved other mem
  rcases mem_snoc.mp mem with old | rfl
  · exact holds other old
  exact (Bool.and_eq_true_iff.mp (Option.ite_none_right_eq_some.mp moved).1).1

structure Renewed (t : Tables) (items : List Item) (rows : List CatalogRow) (states : List EntityState) : Prop where
  keyed : Keyed CatalogRow.key rows
  checks : ∀ row ∈ rows, row.item.check = true
  active : ∀ item, ⟨item,true⟩ ∈ rows ↔ item ∈ items
  kept : ∀ row ∈ t.rows, ∃ stays ∈ rows, stays.item = row.item
  entities : Keyed EntityState.publicId states
  agree : ∀ publicId version, (∃ state ∈ states, state.active = true ∧ state.publicId = publicId ∧ state.sourceVersion = version) ↔
    ∃ item ∈ items, item.publicId = publicId ∧ item.sourceVersion = version

theorem deactivate_rows (t : Tables) (which : String → Bool) :
    (∀ row ∈ (t.deactivate which).rows, ∃ old ∈ t.rows, old.item = row.item) ∧ (∀ old ∈ t.rows, ∃ row ∈ (t.deactivate which).rows, row.item = old.item) ∧
      (∀ item, ⟨item,true⟩ ∈ (t.deactivate which).rows ↔ ⟨item,true⟩ ∈ t.rows ∧ which item.publicId = false) ∧
      (t.deactivate which).rows.map CatalogRow.key = t.rows.map CatalogRow.key := by
  have same : ∀ row : CatalogRow, (if which row.item.publicId then { row with active := false } else row).item = row.item := fun row => by
    split <;> rfl
  refine ⟨fun row mem => ?_,fun old mem => ⟨_,mem_map_of_mem mem,same old⟩,fun item => ?_,?_⟩
  · obtain ⟨old,there,rfl⟩ := mem_map.mp mem
    exact ⟨old,there,(same old).symm⟩
  · constructor
    · intro mem
      obtain ⟨old,there,is⟩ := mem_map.mp mem
      split at is
      · cases is
      cases is
      exact ⟨there,Bool.not_eq_true _ ▸ ‹_›⟩
    · rintro ⟨there,stays⟩
      refine mem_map.mpr ⟨_,there,if_neg ?_⟩
      rw [stays]
      exact Bool.false_ne_true
  show (t.rows.map _).map CatalogRow.key = _
  rw [map_map]
  exact map_congr_left fun row _ => by
    show (if which row.item.publicId then { row with active := false } else row).item.key = row.item.key
    rw [same]

theorem mirror_some {sequence} (done : t.mirror generation sequence items = some u) (rows : Keyed CatalogRow.key t.rows) (checks : ∀ row ∈ t.rows, row.item.check)
    (distinct : Keyed Item.publicId items) (clean : versionConflict t items = false) (entities : Keyed EntityState.publicId t.entities) :
    ∃ rows entities, u = { t with rows,entities,generations := t.generations.map (Generation.superseded generation) } ∧ Renewed t items rows entities := by
  obtain ⟨v,upserted,rfl⟩ := Option.map_eq_some_iff.mp done
  obtain ⟨stored,still,active,keys⟩ := deactivate_rows t fun _ => true
  have fine := upsertRows_check upserted
  have same : ∀ item ∈ items, ∀ row ∈ (t.deactivate fun _ => true).rows, row.key = item.key → row.item = item := fun item mem row there here => by
    obtain ⟨old,before,is⟩ := stored row there
    rw [←is]
    exact consistent clean checks fine item mem old before ((congrArg Item.key is).trans here)
  obtain ⟨after,rfl,keyed,members⟩ := upsertRows_some upserted (by
    unfold Keyed
    rw [keys]
    exact rows) distinct same
  have inactive : Keyed EntityState.publicId (t.entities.map fun state => { state with active := false,sourceSequence := sequence }) := by
    unfold Keyed
    rw [map_map]
    exact entities
  obtain ⟨states,is,outer,known⟩ := @upsertEntities sequence items { t.deactivate (fun _ => true) with
      rows := after,entities := t.entities.map fun state => { state with active := false,sourceSequence := sequence } } inactive distinct
  refine ⟨after,states,?_,keyed,fun row mem => ?_,fun item => ?_,fun row mem => ?_,outer,fun publicId version => ?_⟩
  · exact congrArg (fun t : Tables => { t with generations := t.generations.map (Generation.superseded generation) }) is
  · rcases (members row).mp mem with ⟨item,there,rfl⟩ | ⟨there,_⟩
    · exact fine item there
    · obtain ⟨old,before,is⟩ := stored row there
      exact is ▸ checks old before
  · rw [members]
    constructor
    · rintro (⟨other,there,is⟩ | ⟨there,_⟩)
      · cases is
        exact there
      · cases ((active item).mp there).2
    exact fun mem => .inl ⟨item,mem,rfl⟩
  · obtain ⟨stays,there,is⟩ := still row mem
    by_cases renewed : ∃ item ∈ items, stays.key = item.key
    · obtain ⟨item,listed,here⟩ := renewed
      exact ⟨⟨item,true⟩,(members _).mpr (.inl ⟨item,listed,rfl⟩),(same item listed stays there here).symm.trans is⟩
    exact ⟨stays,(members stays).mpr (.inr ⟨there,fun item listed here => renewed ⟨item,listed,here⟩⟩),is⟩
  constructor
  · rintro ⟨state,mem,live,rfl,rfl⟩
    rcases (known state).mp mem with ⟨item,there,rfl⟩ | ⟨there,_⟩
    · exact ⟨item,there,rfl,rfl⟩
    obtain ⟨_,_,rfl⟩ := mem_map.mp there
    cases live
  · rintro ⟨item,there,rfl,rfl⟩
    exact ⟨_,(known _).mpr (.inl ⟨item,there,rfl⟩),rfl,rfl,rfl⟩

theorem itemsOf_keyed (contents : Contents t) (generation : String) : Keyed Item.publicId (t.itemsOf generation) := by
  unfold Keyed Tables.itemsOf
  rw [map_map]
  refine pairwise_map.mpr ?_
  refine pairwise_filter.mpr ((pairwise_map.mp contents.items).imp fun {one other} apart mine its same => apart ?_)
  exact Prod.ext ((of_decide_eq_true mine).trans (of_decide_eq_true its).symm) same

theorem renewed_mirrored (contents : Contents u) (renewed : Renewed t items rows entities)
    (rowsAre : u.rows = rows) (entitiesAre : u.entities = entities) (events : u.events = []) (active : u.activeGeneration = some generation)
    (own : ∃ g ∈ u.generations, g.id = generation ∧ g.status = .active ∧ u.sequence = g.sourceSequence)
    (others : ∀ g ∈ u.generations, g.status = .active → g.id = generation) (itemsAre : u.itemsOf generation = items) : Mirrored u ∧ u.current = items := by
  have current : u.current = items := by
    unfold Tables.current
    rw [active,events]
    exact itemsAre
  refine ⟨⟨contents,?_,?_,fun g mem status => ?_,fun id is => ?_,fun _ _ _ => ?_,fun none => ?_,?_,?_,?_⟩,current⟩
  · rw [rowsAre]; exact renewed.keyed
  · rw [rowsAre]; exact renewed.checks
  · rw [active,others g mem status]
  · rw [active] at is
    cases is
    obtain ⟨g,mem,named,status,sequence⟩ := own
    rw [events]
    exact ⟨g,mem,named,status,rfl,sequence⟩
  · rw [active]
    rfl
  · rw [active] at none
    cases none
  · rw [rowsAre,current]; exact renewed.active
  · rw [entitiesAre]; exact renewed.entities
  rw [entitiesAre,current]; exact renewed.agree

theorem superseded_same (kept : String) (row : Generation) : (row.superseded kept).id = row.id ∧ (row.superseded kept).sourceSequence = row.sourceSequence ∧
    (row.status ≠ .staging → (row.superseded kept).status ≠ .staging) ∧ ((row.superseded kept).status = .active → row.status = .active ∧ row.id = kept) := by
  unfold Generation.superseded
  split
  · exact ⟨rfl,rfl,fun _ => nofun,nofun⟩
  rename_i stays
  rw [Bool.and_eq_true,decide_eq_true_eq,decide_eq_true_eq,not_and,not_not] at stays
  exact ⟨rfl,rfl,id,fun active => ⟨active,stays active⟩⟩

theorem activated_same (wanted : String) (row : Generation) : (row.activated wanted).id = row.id ∧ (row.activated wanted).sourceSequence = row.sourceSequence ∧
    (row.status ≠ .staging → (row.activated wanted).status ≠ .staging) ∧ ((row.activated wanted).status = .active → row.id = wanted ∨ row.status = .active) := by
  unfold Generation.activated
  split
  · rename_i chosen
    rw [Bool.and_eq_true,decide_eq_true_eq] at chosen
    exact ⟨rfl,rfl,fun _ => nofun,fun _ => .inl chosen.1⟩
  exact ⟨rfl,rfl,id,.inr⟩
end

variable {t u : Tables} {pageCount itemCount : Nat} {generation : Generation} {checkpoint : Checkpoint}

theorem sequence_of (is : t.checkpoint = some checkpoint) : t.sequence = checkpoint.sourceSequence ∧ t.activeGeneration = checkpoint.activeGeneration := by
  unfold Tables.sequence Tables.activeGeneration
  rw [is]
  exact ⟨rfl,rfl⟩

theorem replayBatch_kept (valid : Valid t) (done : replayBatch delivery generation checkpoint t = some u) : Kept t u := by
  obtain ⟨_,fresh,rfl⟩ := insertReceipt_some done
  exact received_kept valid fresh id rfl rfl

theorem activateBatch_kept (valid : Valid t) (staging : generation.status = .staging) (number : generation.sourceSequence = delivery.sourceSequence)
    (ahead : checkpoint.sourceSequence < delivery.sourceSequence)
    (done : activateBatch delivery pageCount itemCount generation checkpoint t = some u) : Kept t u := by
  unfold activateBatch at done
  obtain ⟨v,inserted,rest⟩ := Option.bind_eq_some_iff.mp done
  obtain ⟨guard,fresh,rfl⟩ := insertReceipt_some inserted
  simp only [Bool.and_eq_true,Bool.not_eq_true'] at guard
  obtain ⟨⟨⟨⟨standing,present⟩,_⟩,_⟩,clean⟩ := guard
  obtain ⟨here,_⟩ := sequence_of (of_decide_eq_true standing)
  obtain ⟨row,mem,same⟩ := any_eq_true.mp present
  cases of_decide_eq_true same
  obtain ⟨w,mirrored,rfl⟩ := Option.map_eq_some_iff.mp rest
  obtain ⟨rows,entities,rfl,renewed⟩ := mirror_some mirrored valid.mirrored.rows valid.mirrored.checks (itemsOf_keyed valid.mirrored.toContents generation.id)
    clean valid.mirrored.entities
  let change (g : Generation) : Generation := (g.superseded generation.id).activated generation.id
  have ids : ∀ g, (change g).id = g.id := fun g => (activated_same _ _).1.trans (superseded_same _ g).1
  have numbers : ∀ g, (change g).sourceSequence = g.sourceSequence := fun g => (activated_same _ _).2.1.trans (superseded_same _ g).2.1
  let after : Tables := { t with
    receipts := t.receipts++[delivery.receipt .completed],rows,entities
    generations := (t.generations.map (Generation.superseded generation.id)).map (Generation.activated generation.id)
    checkpoint := some ⟨some generation.id,delivery.sourceGeneration,delivery.sourceSequence⟩
    taken := t.taken++[delivery.deliveryId],events := [] }
  have generations : after.generations = t.generations.map change := map_map
  have contents : Contents after := by
    refine ⟨?_,valid.mirrored.items,valid.mirrored.fine,fun row inside => ?_,valid.mirrored.accepted⟩
    · rw [generations]
      unfold Keyed
      rw [map_map,show (Generation.id ∘ change) = Generation.id from funext ids]
      exact valid.mirrored.generations
    obtain ⟨g,there,owns⟩ := valid.mirrored.owned row inside
    exact ⟨change g,generations ▸ mem_map_of_mem there,(ids g).trans owns⟩
  have active : (change generation).status = .active := by
    show ((generation.superseded generation.id).activated generation.id).status = .active
    have same : generation.superseded generation.id = generation := by
      unfold Generation.superseded
      rw [staging]
      rfl
    rw [same]
    unfold Generation.activated
    rw [staging,decide_eq_true (rfl : generation.id = generation.id)]
    rfl
  obtain ⟨mirror,_⟩ := renewed_mirrored (u := after) contents renewed rfl rfl rfl rfl
    ⟨change generation,generations ▸ mem_map_of_mem mem,ids generation,active,((numbers generation).trans number).symm⟩
    (fun g inside status => by
      rw [generations] at inside
      obtain ⟨old,_,rfl⟩ := mem_map.mp inside
      rcases (activated_same _ _).2.2.2 status with named | live
      · exact (ids old).trans ((superseded_same _ old).1.symm.trans named)
      exact (ids old).trans ((superseded_same _ old).2.2.2 live).2) rfl
  have later : Later t after := ⟨here ▸ Nat.le_of_lt ahead,fun _ => rfl,fun _ => rfl,prefix_append _ _,renewed.kept,fun g inside status =>
    ⟨change g,generations ▸ mem_map_of_mem inside,ids g,numbers g,(activated_same _ _).2.2.1 ((superseded_same _ g).2.2.1 status),rfl⟩,
    prefix_rfl,prefix_rfl⟩
  refine ⟨⟨mirror,valid.taken.received fresh rfl (.inr rfl),valid.staged.congr rfl rfl,fun p inside => (valid.promotions p inside).later later⟩,later,
    ⟨fun e same => ?_,fun p same => absurd same (events_grow _ p),.inl rfl⟩⟩
  exact absurd same (append_ne_nil_of_right_ne_nil _ (cons_ne_nil _ _)).symm

theorem current_of {id : String} (active : t.activeGeneration = some id) : t.current = applyEvents (t.itemsOf id) (t.events.map Prod.snd) := by
  unfold Tables.current
  rw [active]

theorem current_keyed (mirrored : Mirrored t) : Keyed Item.publicId t.current := by
  unfold Tables.current
  split
  · exact applyEvents_keyed (itemsOf_keyed mirrored.toContents _) _
  exact nodup_nil

theorem upserted_keyed (event : CatalogEvent) : Keyed Item.publicId event.upserted := by
  cases event with
  | upsert => exact nodup_singleton _
  | tombstone => exact nodup_nil

theorem upserted_mem {event : CatalogEvent} (mem : item ∈ event.upserted) : item.publicId = event.publicId ∧ item.sourceVersion = event.sourceVersion := by
  cases event with
  | upsert =>
    cases mem_singleton.mp mem
    exact ⟨rfl,rfl⟩
  | tombstone => cases mem

theorem eventBatch_kept {event : CatalogEvent} (valid : Valid t) (pointed : checkpoint.activeGeneration = some active)
    (number : delivery.sourceSequence = checkpoint.sourceSequence + 1) (done : eventBatch delivery event active checkpoint t = some u) : Kept t u := by
  unfold eventBatch at done
  obtain ⟨v,inserted,rest⟩ := Option.bind_eq_some_iff.mp done
  obtain ⟨guard,fresh,rfl⟩ := insertReceipt_some inserted
  simp only [Bool.and_eq_true,Bool.not_eq_true'] at guard
  obtain ⟨⟨standing,_⟩,clean⟩ := guard
  obtain ⟨here,is⟩ := sequence_of (of_decide_eq_true standing)
  rw [pointed] at is
  obtain ⟨w,upserted,rfl⟩ := Option.map_eq_some_iff.mp rest
  obtain ⟨stored,still,live,keys⟩ := deactivate_rows t (· = event.publicId)
  have fine := upsertRows_check upserted
  have same : ∀ item ∈ event.upserted, ∀ row ∈ (t.deactivate (· = event.publicId)).rows, row.key = item.key → row.item = item :=
    fun item mem row there equal => by
      obtain ⟨old,before,was⟩ := stored row there
      rw [←was]
      exact consistent clean valid.mirrored.checks fine item mem old before ((congrArg Item.key was).trans equal)
  obtain ⟨rows,rfl,keyed,members⟩ := upsertRows_some upserted (by
    unfold Keyed
    exact keys.symm ▸ valid.mirrored.rows) (upserted_keyed event) same
  let state : EntityState := ⟨event.publicId,event.sourceVersion,delivery.sourceSequence,decide (event.upserted ≠ [])⟩
  let after : Tables := { t with
    receipts := t.receipts++[delivery.receipt .completed],rows
    entities := upsert EntityState.publicId t.entities state fun _ => state
    checkpoint := t.checkpoint.map fun checkpoint => { checkpoint with sourceSequence := delivery.sourceSequence }
    taken := t.taken++[delivery.deliveryId],events := t.events++[(delivery.sourceSequence,event)] }
  have checkpointAfter : after.checkpoint = some { checkpoint with sourceSequence := delivery.sourceSequence } := by
    show t.checkpoint.map _ = _
    rw [of_decide_eq_true standing]
    rfl
  obtain ⟨moved,activeAfter⟩ := sequence_of checkpointAfter
  have sequence : after.sequence = t.sequence + 1 := by
    rw [moved,here]
    exact number
  have activeIs : after.activeGeneration = some active := activeAfter.trans pointed
  have current : after.current = applyEvents t.current [event] := by
    rw [current_of activeIs,current_of is,←applyEvents_append]
    rw [map_append]
    rfl
  have mirror : Mirrored after := by
    refine ⟨⟨valid.mirrored.generations,valid.mirrored.items,valid.mirrored.fine,valid.mirrored.owned,valid.mirrored.accepted⟩,keyed,fun row mem => ?_,
      fun g mem status => ?_,fun id named => ?_,fun _ _ _ => ?_,fun none => ?_,fun item => ?_,keyed_upsert valid.mirrored.entities fun _ _ _ => rfl,
      fun publicId version => ?_⟩
    · rcases (members row).mp mem with ⟨item,there,rfl⟩ | ⟨there,_⟩
      · exact fine item there
      · obtain ⟨old,before,was⟩ := stored row there
        exact was ▸ valid.mirrored.checks old before
    · rw [activeIs,←is]
      exact valid.mirrored.active g mem status
    · rw [activeIs] at named
      obtain ⟨g,mem,id,status,numbers,total⟩ := valid.mirrored.named _ (is.trans named)
      refine ⟨g,mem,id,status,?_,?_⟩
      · show (t.events++[(delivery.sourceSequence,event)]).map Prod.fst = range' (g.sourceSequence + 1) (t.events++[(delivery.sourceSequence,event)]).length
        rw [map_append,numbers,length_append,length_singleton,range'_concat,Nat.one_mul]
        have next : delivery.sourceSequence = g.sourceSequence + 1 + t.events.length := by omega
        rw [←next]
        rfl
      rw [sequence,total,length_append]
      rfl
    · rw [activeIs]
      rfl
    · rw [activeIs] at none
      cases none
    · rw [current,mem_applyEvent,←valid.mirrored.current]
      show ⟨item,true⟩ ∈ rows ↔ _
      rw [members]
      constructor
      · rintro (⟨other,there,equal⟩ | ⟨there,_⟩)
        · cases equal
          exact .inl there
        · obtain ⟨before,apart⟩ := (live item).mp there
          exact .inr ⟨before,of_decide_eq_false apart⟩
      rintro (there | ⟨before,apart⟩)
      · exact .inl ⟨item,there,rfl⟩
      · refine .inr ⟨(live item).mpr ⟨before,decide_eq_false apart⟩,fun other there equal => apart ?_⟩
        exact (congrArg Prod.fst equal).trans (upserted_mem there).1
    show (∃ x ∈ upsert EntityState.publicId t.entities state fun _ => state, _) ↔ _
    rw [current]
    have renewal : ∀ x, x ∈ upsert EntityState.publicId t.entities state (fun _ => state) ↔ x = state ∨ (x ∈ t.entities ∧ x.publicId ≠ state.publicId) :=
      fun x => mem_upsert fun _ _ _ => rfl
    simp only [mem_applyEvent,renewal]
    constructor
    · rintro ⟨x,rfl | ⟨there,apart⟩,lives,rfl,rfl⟩
      · obtain ⟨item,mem⟩ := exists_mem_of_ne_nil _ (of_decide_eq_true lives)
        exact ⟨item,.inl mem,(upserted_mem mem).1,(upserted_mem mem).2⟩
      · obtain ⟨item,mem,ids,versions⟩ := (valid.mirrored.agree x.publicId x.sourceVersion).mp ⟨x,there,lives,rfl,rfl⟩
        exact ⟨item,.inr ⟨mem,fun equal => apart (ids.symm.trans equal)⟩,ids,versions⟩
    rintro ⟨item,mem | ⟨there,apart⟩,rfl,rfl⟩
    · exact ⟨state,.inl rfl,decide_eq_true (ne_nil_of_mem mem),(upserted_mem mem).1.symm,(upserted_mem mem).2.symm⟩
    · obtain ⟨x,known,lives,ids,versions⟩ := (valid.mirrored.agree item.publicId item.sourceVersion).mpr ⟨item,there,rfl,rfl⟩
      exact ⟨x,.inr ⟨known,fun equal => apart (ids.symm.trans equal)⟩,lives,ids,versions⟩
  have later : Later t after := by
    refine ⟨sequence ▸ Nat.le_succ _,fun _ => by rw [checkpointAfter]; rfl,fun _ => by rw [activeIs]; rfl,prefix_append _ _,fun row mem => ?_,
      fun g mem status => ⟨g,mem,rfl,rfl,status,rfl⟩,prefix_rfl,prefix_rfl⟩
    obtain ⟨stays,there,was⟩ := still row mem
    by_cases renewed : ∃ item ∈ event.upserted, stays.key = item.key
    · obtain ⟨item,listed,equal⟩ := renewed
      exact ⟨⟨item,true⟩,(members _).mpr (.inl ⟨item,listed,rfl⟩),(same item listed stays there equal).symm.trans was⟩
    exact ⟨stays,(members stays).mpr (.inr ⟨there,fun item listed equal => renewed ⟨item,listed,equal⟩⟩),was⟩
  exact ⟨⟨mirror,valid.taken.received fresh rfl (.inr rfl),valid.staged.congr rfl rfl,fun p inside => (valid.promotions p inside).later later⟩,later,
    ⟨fun _ _ => sequence,fun p same => absurd same (events_grow _ p),.inl rfl⟩⟩
end LedgeTopOps.CatalogMirror
