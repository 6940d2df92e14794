import LedgeTopOps.CatalogPrograms

namespace LedgeTopOps.CatalogMirror
open List KeyedRows UpsertedRows

section

def applyEvents (items : List Item) : List CatalogEvent → List Item
  | [] => items
  | .upsert item :: rest => applyEvents (drop Item.publicId items item.publicId++[item]) rest
  | .tombstone publicId _ :: rest => applyEvents (drop Item.publicId items publicId) rest

def Tables.current (t : Tables) : List Item :=
  match t.activeGeneration with
  | some generation => applyEvents (t.itemsOf generation) (t.events.map Prod.snd)
  | none => []

theorem applyEvents_append (items : List Item) (early late : List CatalogEvent) :
    applyEvents items (early++late) = applyEvents (applyEvents items early) late := by
  induction early generalizing items with
  | nil => rfl
  | cons event _ ih =>
    cases event with
    | upsert | tombstone => exact ih _

theorem applyEvents_keyed (keyed : Keyed Item.publicId items) (events : List CatalogEvent) : Keyed Item.publicId (applyEvents items events) := by
  induction events generalizing items with
  | nil => exact keyed
  | cons event _ ih =>
    cases event with
    | upsert => exact ih (keyed.drop.add fun row mem => (mem_drop.mp mem).2)
    | tombstone => exact ih keyed.drop

theorem mem_applyEvent : item ∈ applyEvents items [event] ↔ item ∈ event.upserted ∨ (item ∈ items ∧ item.publicId ≠ event.publicId) := by
  cases event with
  | upsert new =>
    show item ∈ drop Item.publicId items new.publicId++[new] ↔ _
    rw [mem_append,mem_drop,or_comm]
    rfl
  | tombstone publicId =>
    show item ∈ drop Item.publicId items publicId ↔ _
    rw [mem_drop]
    exact (or_iff_right (not_mem_nil)).symm
end

variable {t u : Tables}

theorem same_of_undiffering {current staged : Item} (keys : current.key = staged.key) (same : current.differs staged = false)
    (check : current.check) (other : staged.check) : current = staged := by
  have filled : ∀ {item : Item}, item.check → item.summary ≠ some "" := fun {item} check empty => by
    simp only [Item.check,Bool.and_eq_true] at check
    have short := check.1.1.2
    rw [empty] at short
    cases short
  obtain ⟨_,_,_,summary,_,_,_,_⟩ := current
  obtain ⟨_,_,_,summary',_,_,_,_⟩ := staged
  cases keys
  simp only [Item.differs,Bool.or_eq_false_iff,decide_eq_false_iff_not,not_not] at same
  obtain ⟨⟨⟨⟨⟨rfl,summaries⟩,rfl⟩,rfl⟩,rfl⟩,rfl⟩ := same
  have summary_same : summary = summary' := by
    have left := filled check
    have right := filled other
    cases summary with
    | none =>
      cases summary' with
      | none => rfl
      | some =>
        cases summaries
        exact absurd rfl right
    | some =>
      cases summary' with
      | none =>
        cases summaries
        exact absurd rfl left
      | some =>
        cases summaries
        rfl
  cases summary_same
  rfl

theorem consistent (clean : versionConflict t items = false) (checks : ∀ row ∈ t.rows, row.item.check)
    (fine : ∀ item ∈ items, item.check) : ∀ item ∈ items, ∀ row ∈ t.rows, row.key = item.key → row.item = item := by
  intro item mem row there same
  have undiffering := any_eq_false.mp (Bool.not_eq_true _ ▸ any_eq_false.mp clean item mem) row there
  rw [Bool.and_eq_true,decide_eq_true_eq,not_and,Bool.not_eq_true] at undiffering
  exact same_of_undiffering same (undiffering same) (checks row there) (fine item mem)

theorem upsertRow_some (done : t.upsertRow item = some u) (keyed : Keyed CatalogRow.key t.rows) (same : ∀ row ∈ t.rows, row.key = item.key → row.item = item) :
    ∃ rows, u = { t with rows } ∧ Keyed CatalogRow.key rows ∧ (∀ row, row ∈ rows ↔ row = ⟨item,true⟩ ∨ (row ∈ t.rows ∧ row.key ≠ item.key)) ∧ item.check := by
  obtain ⟨fine,is⟩ := Option.ite_none_right_eq_some.mp done
  cases is
  refine ⟨_,rfl,keyed_upsert keyed fun row _ here => here,fun row => mem_upsert fun row mem here => ?_,(Bool.and_eq_true_iff.mp fine).1⟩
  obtain ⟨stored,active⟩ := row
  cases same ⟨stored,active⟩ mem here
  rfl

theorem upsertRows_some (done : items.foldlM (fun (t : Tables) item => t.upsertRow item) t = some u) (keyed : Keyed CatalogRow.key t.rows)
    (distinct : Keyed Item.publicId items) (same : ∀ item ∈ items, ∀ row ∈ t.rows, row.key = item.key → row.item = item) :
    ∃ rows, u = { t with rows } ∧ Keyed CatalogRow.key rows ∧
      (∀ row, row ∈ rows ↔ (∃ item ∈ items, row = ⟨item,true⟩) ∨ (row ∈ t.rows ∧ ∀ item ∈ items, row.key ≠ item.key)) := by
  refine foldlM_rec (fun done (u : Tables) => ∃ rows, u = { t with rows } ∧ Keyed CatalogRow.key rows ∧
      Gathered CatalogRow.key (fun item => ⟨item,true⟩) t.rows done rows) ⟨t.rows,rfl,keyed,gathered_nil⟩ ?_ done
  intro early item rest v w split holds moved
  obtain ⟨rows,rfl,inner,members⟩ := holds
  have mem : item ∈ items := by
    rw [split]
    exact mem_append_right _ (.head _)
  have apart := done_apart distinct split
  obtain ⟨after,rfl,outer,changed,_⟩ := upsertRow_some moved inner fun row there here => by
    rcases (members row).mp there with ⟨other,earlier,rfl⟩ | ⟨old,_⟩
    · exact absurd (congrArg Prod.fst here) (apart other earlier)
    exact same item mem row old here
  exact ⟨after,rfl,outer,members.add (fun other earlier here => apart other earlier (congrArg Prod.fst here)) changed⟩

theorem upsertEntities {sequence} (items : List Item) (t : Tables) (keyed : Keyed EntityState.publicId t.entities) (distinct : Keyed Item.publicId items) :
    ∃ entities, items.foldl (fun (t : Tables) item => t.upsertEntity ⟨item.publicId,item.sourceVersion,sequence,true⟩) t = { t with entities } ∧
      Keyed EntityState.publicId entities ∧ (∀ state, state ∈ entities ↔ (∃ item ∈ items, state = ⟨item.publicId,item.sourceVersion,sequence,true⟩) ∨
        (state ∈ t.entities ∧ ∀ item ∈ items, state.publicId ≠ item.publicId)) := by
  refine foldl_rec (fun (done : List Item) (u : Tables) => ∃ entities, u = { t with entities } ∧ Keyed EntityState.publicId entities ∧
      Gathered EntityState.publicId (fun item => ⟨item.publicId,item.sourceVersion,sequence,true⟩) t.entities done entities)
    ⟨t.entities,rfl,keyed,gathered_nil⟩ ?_
  intro early item rest v split holds
  obtain ⟨entities,rfl,inner,members⟩ := holds
  exact ⟨_,rfl,keyed_upsert inner fun _ _ _ => rfl,members.add (done_apart distinct split) fun _ => mem_upsert fun _ _ _ => rfl⟩
end LedgeTopOps.CatalogMirror
