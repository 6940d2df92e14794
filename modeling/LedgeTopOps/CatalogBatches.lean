import LedgeTopOps.CatalogCustody

namespace LedgeTopOps.CatalogMirror
open List KeyedRows

def GenerationItem.key (row : GenerationItem) : String × String := (row.generation,row.item.publicId)
def InventoryPage.key (page : InventoryPage) : Nat × String × Nat := (page.registryId,page.snapshotId,page.pageIndex)
def StagedItem.key (row : StagedItem) : Nat × String × String := (row.registryId,row.snapshotId,row.item.publicId)

structure Contents (t : Tables) : Prop where
  generations : Keyed Generation.id t.generations
  items : Keyed GenerationItem.key t.items
  fine : ∀ row ∈ t.items, row.item.check = true
  owned : ∀ row ∈ t.items, ∃ g ∈ t.generations, g.id = row.generation
  accepted : ∀ generation item, item ∈ t.itemsOf generation ↔ ∃ page ∈ t.accepted, page.generation = generation ∧ item ∈ page.items

structure Mirrored (t : Tables) : Prop extends Contents t where
  rows : Keyed CatalogRow.key t.rows
  checks : ∀ row ∈ t.rows, row.item.check = true
  active : ∀ g ∈ t.generations, g.status = .active → t.activeGeneration = some g.id
  named : ∀ id, t.activeGeneration = some id → ∃ g ∈ t.generations, g.id = id ∧ g.status = .active ∧
    t.events.map Prod.fst = range' (g.sourceSequence + 1) t.events.length ∧ t.sequence = g.sourceSequence + t.events.length
  activated : ∀ g ∈ t.generations, g.status ≠ .staging → t.activeGeneration.isSome = true
  idle : t.activeGeneration = none → t.events = []
  current : ∀ item, ⟨item,true⟩ ∈ t.rows ↔ item ∈ t.current
  entities : Keyed EntityState.publicId t.entities
  agree : ∀ publicId version, (∃ state ∈ t.entities, state.active = true ∧ state.publicId = publicId ∧ state.sourceVersion = version) ↔
    ∃ item ∈ t.current, item.publicId = publicId ∧ item.sourceVersion = version

structure Taken (t : Tables) : Prop where
  receipts : Keyed Receipt.deliveryId t.receipts
  once : t.taken.Nodup
  known : ∀ id ∈ t.taken, ∃ receipt ∈ t.receipts, receipt.deliveryId = id

structure Staged (t : Tables) : Prop where
  pages : Keyed InventoryPage.key t.stagedPages
  items : Keyed StagedItem.key t.stagedItems
  owned : ∀ row ∈ t.stagedItems, ∃ page ∈ t.stagedPages, page.registryId = row.registryId ∧ page.snapshotId = row.snapshotId ∧ page.pageIndex = row.pageIndex
  whole : ∀ page ∈ t.stagedPages, ∀ item ∈ page.items, ⟨page.registryId,page.snapshotId,page.pageIndex,item⟩ ∈ t.stagedItems
  distinct : ∀ page ∈ t.stagedPages, Keyed Item.publicId page.items

structure Promoted (t : Tables) (p : Promotion) : Prop where
  checked : p.checked = p.pages
  stored : ∀ page ∈ p.pages, page ∈ t.stagedPages ∧ page.registryId = p.authority.registryId ∧ page.snapshotId = p.authority.snapshotId
  numbers : (p.pages.map InventoryPage.pageIndex).Perm (range p.pages.length)
  last : ∀ page ∈ p.pages, page.nextCursor = none ↔ page.pageIndex + 1 = p.pages.length
  totals : ∀ page ∈ p.pages, page.totalCount = p.items.length
  items : ∀ item, item ∈ p.items ↔ ∃ page ∈ p.pages, item ∈ page.items
  distinct : Keyed Item.publicId p.items
  generation : ∃ g ∈ t.generations, g.id = p.authority.generation ∧ g.sourceSequence = p.authority.expectedSourceSequence + 1 ∧
    g.status ≠ .staging ∧ t.itemsOf g.id = p.items

structure Valid (t : Tables) : Prop where
  mirrored : Mirrored t
  taken : Taken t
  staged : Staged t
  promotions : ∀ p ∈ t.promotions, Promoted t p

-- What no later state takes back.
structure Later (s t : Tables) : Prop where
  sequence : s.sequence ≤ t.sequence
  checkpoint : s.checkpoint.isSome = true → t.checkpoint.isSome = true
  active : s.activeGeneration.isSome = true → t.activeGeneration.isSome = true
  receipts : s.receipts <+: t.receipts
  rows : ∀ row ∈ s.rows, ∃ kept ∈ t.rows, kept.item = row.item
  generations : ∀ g ∈ s.generations, g.status ≠ .staging → ∃ kept ∈ t.generations, kept.id = g.id ∧ kept.sourceSequence = g.sourceSequence ∧
    kept.status ≠ .staging ∧ t.itemsOf g.id = s.itemsOf g.id
  pages : s.stagedPages <+: t.stagedPages
  promotions : s.promotions <+: t.promotions

structure Moves (s t : Tables) : Prop where
  event : ∀ e, t.events = s.events++[e] → t.sequence = s.sequence + 1
  promotion : ∀ p, t.promotions = s.promotions++[p] → t.sequence = s.sequence + 1 ∧ t.sequence = p.authority.expectedSourceSequence + 1 ∧
    t.current = p.items ∧ t.activeGeneration = some p.authority.generation
  grows : t.promotions = s.promotions ∨ ∃ p, t.promotions = s.promotions++[p]

structure Kept (s t : Tables) : Prop where
  valid : Valid t
  later : Later s t
  moves : Moves s t

section
theorem Later.refl (t : Tables) : Later t t :=
  ⟨Nat.le_refl _,id,id,prefix_rfl,fun row mem => ⟨row,mem,rfl⟩,fun g mem other => ⟨g,mem,rfl,rfl,other,rfl⟩,prefix_rfl,prefix_rfl⟩

theorem Later.trans (first : Later s t) (second : Later t u) : Later s u where
  sequence := Nat.le_trans first.sequence second.sequence
  checkpoint given := second.checkpoint (first.checkpoint given)
  active given := second.active (first.active given)
  receipts := first.receipts.trans second.receipts
  rows row mem := by
    obtain ⟨kept,there,same⟩ := first.rows row mem
    obtain ⟨further,here,again⟩ := second.rows kept there
    exact ⟨further,here,again.trans same⟩
  generations g mem status := by
    obtain ⟨kept,there,id,number,other,items⟩ := first.generations g mem status
    obtain ⟨further,here,id',number',other',items'⟩ := second.generations kept there other
    refine ⟨further,here,id'.trans id,number'.trans number,other',?_⟩
    rw [id] at items'
    exact items'.trans items
  pages := first.pages.trans second.pages
  promotions := first.promotions.trans second.promotions

theorem events_grow {α : Type} (xs : List α) (x : α) : xs ≠ xs++[x] := fun same => by
  have lengths := congrArg length same
  rw [length_append,length_singleton] at lengths
  omega

theorem Moves.still (events : t.events = s.events) (promotions : t.promotions = s.promotions) : Moves s t :=
  ⟨fun e same => absurd (events.symm.trans same) (events_grow _ e),fun p same => absurd (promotions.symm.trans same) (events_grow _ p), .inl promotions⟩

theorem Promoted.later (promoted : Promoted s p) (later : Later s t) : Promoted t p := by
  obtain ⟨g,mem,id,number,status,items⟩ := promoted.generation
  obtain ⟨kept,there,id',number',status',items'⟩ := later.generations g mem status
  refine ⟨promoted.checked,fun page mem => (promoted.stored page mem).imp_left (later.pages.subset ·),promoted.numbers,promoted.last,
    promoted.totals,promoted.items,promoted.distinct,kept,there,id'.trans id,number'.trans number,status',?_⟩
  rw [id',items']
  exact items

theorem Mirrored.congr (mirrored : Mirrored s) (active : t.activeGeneration = s.activeGeneration) (sequence : t.sequence = s.sequence)
    (generations : t.generations = s.generations) (items : t.items = s.items) (accepted : t.accepted = s.accepted) (rows : t.rows = s.rows)
    (entities : t.entities = s.entities) (events : t.events = s.events) : Mirrored t := by
  have itemsOf : ∀ id, t.itemsOf id = s.itemsOf id := fun id => by
    unfold Tables.itemsOf
    rw [items]
  have current : t.current = s.current := by
    unfold Tables.current
    simp only [active,itemsOf,events]
  refine ⟨⟨?_,?_,?_,?_,?_⟩,?_,?_,?_,?_,?_,?_,?_,?_,?_⟩
  · rw [generations]; exact mirrored.generations
  · rw [items]; exact mirrored.items
  · rw [items]; exact mirrored.fine
  · rw [items,generations]; exact mirrored.owned
  · simp only [itemsOf,accepted]; exact mirrored.accepted
  · rw [rows]; exact mirrored.rows
  · rw [rows]; exact mirrored.checks
  · rw [generations,active]; exact mirrored.active
  · rw [generations,active,events,sequence]; exact mirrored.named
  · rw [generations,active]; exact mirrored.activated
  · rw [active,events]; exact mirrored.idle
  · rw [rows,current]; exact mirrored.current
  · rw [entities]; exact mirrored.entities
  · rw [entities,current]; exact mirrored.agree
end

variable {t u : Tables} {receipt : Receipt} {guard : Bool}

theorem insertReceipt_some (done : t.insertReceipt receipt guard = some u) :
    guard ∧ (∀ other ∈ t.receipts, other.deliveryId ≠ receipt.deliveryId) ∧ u = { t with receipts := t.receipts++[receipt] } := by
  obtain ⟨fine,is⟩ := Option.ite_none_right_eq_some.mp done
  cases is
  rw [Bool.and_eq_true,Bool.and_eq_true,Bool.not_eq_true',any_eq_false] at fine
  exact ⟨fine.1.1,fun other mem same => fine.2 other mem (decide_eq_true same),rfl⟩

theorem Taken.received (taken : Taken t) (fresh : ∀ other ∈ t.receipts, other.deliveryId ≠ receipt.deliveryId)
    (receipts : u.receipts = t.receipts++[receipt]) (ids : u.taken = t.taken ∨ u.taken = t.taken++[receipt.deliveryId]) : Taken u := by
  have known : ∀ id ∈ t.taken, ∃ other ∈ u.receipts, other.deliveryId = id := fun id mem => by
    obtain ⟨other,there,same⟩ := taken.known id mem
    exact ⟨other,receipts ▸ mem_append_left _ there,same⟩
  refine ⟨receipts ▸ taken.receipts.add fresh,?_,?_⟩
  · rcases ids with same | more
    · exact same ▸ taken.once
    · rw [more]
      refine nodup_append.mpr ⟨taken.once,nodup_singleton _,fun id there other here same => ?_⟩
      obtain ⟨stored,mem,own⟩ := taken.known id there
      exact fresh stored mem (own.trans (same.trans (mem_singleton.mp here)))
  intro id mem
  rcases ids with same | more
  · exact known id (same ▸ mem)
  rw [more] at mem
  rcases mem_snoc.mp mem with old | rfl
  · exact known id old
  exact ⟨receipt,receipts ▸ mem_append_right _ (mem_singleton_self _),rfl⟩

theorem Staged.congr (staged : Staged t) (pages : u.stagedPages = t.stagedPages) (items : u.stagedItems = t.stagedItems) : Staged u := by
  refine ⟨?_,?_,?_,?_,?_⟩
  · rw [pages]; exact staged.pages
  · rw [items]; exact staged.items
  · rw [items,pages]; exact staged.owned
  · rw [items,pages]; exact staged.whole
  rw [pages]; exact staged.distinct
end LedgeTopOps.CatalogMirror
