import LedgeTopOps.CatalogBatches

namespace LedgeTopOps.CatalogMirror
open List KeyedRows UpsertedRows AtomicPrograms

section
variable {t u : Tables} {α : Type}

theorem insertGeneration_some (done : t.insertGeneration generation = some u) :
    (∀ other ∈ t.generations, other.id ≠ generation.id) ∧ u = { t with generations := t.generations++[generation] } := by
  obtain ⟨fine,is⟩ := Option.ite_none_right_eq_some.mp done
  cases is
  rw [Bool.and_eq_true,Bool.not_eq_true',any_eq_false] at fine
  refine ⟨fun other mem same => fine.2 other mem ?_,rfl⟩
  rw [Bool.or_eq_true,Bool.or_eq_true]
  exact .inl (.inl (decide_eq_true same))

theorem insertPages_some {page : α → GenerationPage} {list : List α} (done : list.foldlM (fun (t : Tables) x => t.insertPage (page x)) t = some u) :
    ∃ pages, u = { t with pages } := by
  refine foldlM_rec (fun _ (u : Tables) => ∃ pages, u = { t with pages }) ⟨t.pages,rfl⟩ ?_ done
  intro _ x _ v w _ holds moved
  obtain ⟨_,rfl⟩ := holds
  obtain ⟨_,is⟩ := Option.ite_none_right_eq_some.mp moved
  cases is
  exact ⟨_,rfl⟩

theorem insertItems_some {list : List α} (done : list.foldlM (fun (t : Tables) x => t.insertItem (row x)) t = some u)
    (keyed : Keyed GenerationItem.key t.items) (fine : ∀ row ∈ t.items, row.item.check) :
    u = { t with items := t.items++list.map row } ∧ Keyed GenerationItem.key (t.items++list.map row) ∧
      ∀ x ∈ t.items++list.map row, x.item.check := by
  refine foldlM_rec (fun done (u : Tables) => u = { t with items := t.items++done.map row } ∧ Keyed GenerationItem.key (t.items++done.map row) ∧
      ∀ x ∈ t.items++done.map row, x.item.check) ?_ ?_ done
  · rw [map_nil,append_nil]
    exact ⟨rfl,keyed,fine⟩
  intro _ x _ v w _ holds moved
  obtain ⟨rfl,inner,checks⟩ := holds
  obtain ⟨new,is⟩ := Option.ite_none_right_eq_some.mp moved
  cases is
  rw [Bool.and_eq_true,Bool.not_eq_true',any_eq_false] at new
  rw [map_append,←append_assoc]
  refine ⟨rfl,inner.add fun other mem same => new.2 other mem ?_,fun other mem => ?_⟩
  · rw [Bool.and_eq_true,decide_eq_true_eq,decide_eq_true_eq]
    exact Prod.mk.inj same
  rcases mem_snoc.mp mem with old | rfl
  · exact checks other old
  exact new.1

theorem ensureCheckpoint_same (t : Tables) : ∃ checkpoint, t.ensureCheckpoint = { t with checkpoint } ∧ t.ensureCheckpoint.activeGeneration = t.activeGeneration ∧
    t.ensureCheckpoint.sequence = t.sequence ∧ t.ensureCheckpoint.checkpoint.isSome := by
  unfold Tables.ensureCheckpoint
  split
  · rename_i checkpoint is
    exact ⟨t.checkpoint,rfl,rfl,rfl,by rw [is]; rfl⟩
  rename_i is
  refine ⟨_,rfl,?_,?_,rfl⟩
  · unfold Tables.activeGeneration
    rw [is]
    rfl
  unfold Tables.sequence
  rw [is]
  rfl
end

variable {t u : Tables} {pageNumber pageCount itemCount : Nat}

theorem itemsOf_append (t : Tables) (rows : List GenerationItem) (id : String) :
    ({ t with items := t.items++rows } : Tables).itemsOf id = t.itemsOf id++(rows.filter (·.generation = id)).map GenerationItem.item := by
  unfold Tables.itemsOf
  rw [filter_append,map_append]

theorem mem_itemsOf_append {id : String} :
    item ∈ ({ t with items := t.items++rows } : Tables).itemsOf id ↔ item ∈ t.itemsOf id ∨ ∃ row ∈ rows, row.generation = id ∧ row.item = item := by
  rw [itemsOf_append,mem_append,mem_map]
  simp only [mem_filter,decide_eq_true_eq,and_assoc]

theorem appended_contents (contents : Contents t) (id : String) (rows : List GenerationItem) (pages : List Accepted)
    (unique : Keyed Generation.id u.generations) (kept : ∀ g ∈ t.generations, g.id ∈ u.generations.map Generation.id) (own : id ∈ u.generations.map Generation.id)
    (items : u.items = t.items++rows) (keyed : Keyed GenerationItem.key u.items) (fine : ∀ row ∈ u.items, row.item.check)
    (mine : ∀ row ∈ rows, row.generation = id) (acceptedMore : u.accepted = t.accepted++pages)
    (law : ∀ item, (∃ row ∈ rows, row.item = item) ↔ ∃ page ∈ pages, item ∈ page.items) (theirs : ∀ page ∈ pages, page.generation = id) :
    Contents u ∧ ∀ other ≠ id, u.itemsOf other = t.itemsOf other := by
  have itemsOf : ∀ other, u.itemsOf other = ({ t with items := t.items++rows } : Tables).itemsOf other := fun other => by
    unfold Tables.itemsOf
    rw [items]
  refine ⟨⟨unique,keyed,fine,fun row mem => ?_,fun other item => ?_⟩,fun other apart => ?_⟩
  · rw [items] at mem
    rcases mem_append.mp mem with before | new
    · obtain ⟨g,there,same⟩ := contents.owned row before
      obtain ⟨still,here,named⟩ := mem_map.mp (kept g there)
      exact ⟨still,here,named.trans same⟩
    obtain ⟨g,there,same⟩ := mem_map.mp own
    exact ⟨g,there,same.trans (mine row new).symm⟩
  · rw [itemsOf,mem_itemsOf_append,contents.accepted,acceptedMore]
    constructor
    · rintro (⟨page,there,known⟩ | ⟨row,there,same,rfl⟩)
      · exact ⟨page,mem_append_left _ there,known⟩
      · obtain ⟨page,mem,holds⟩ := (law row.item).mp ⟨row,there,rfl⟩
        exact ⟨page,mem_append_right _ mem,(theirs page mem).trans ((mine row there).symm.trans same),holds⟩
    rintro ⟨page,mem,same,holds⟩
    rcases mem_append.mp mem with before | new
    · exact .inl ⟨page,before,same,holds⟩
    obtain ⟨row,there,is⟩ := (law item).mpr ⟨page,new,holds⟩
    exact .inr ⟨row,there,(mine row there).trans ((theirs page new).symm.trans same),is⟩
  rw [itemsOf,itemsOf_append]
  have none : rows.filter (·.generation = other) = [] := filter_eq_nil_iff.mpr fun row mem is =>
    apart ((of_decide_eq_true is).symm.trans (mine row mem))
  rw [none,map_nil,append_nil]

theorem accepting_mirrored (mirrored : Mirrored t) (id : String) (rows : List GenerationItem) (pages : List Accepted)
    (active : u.activeGeneration = t.activeGeneration) (sequence : u.sequence = t.sequence) (rowsSame : u.rows = t.rows)
    (entities : u.entities = t.entities) (events : u.events = t.events)
    (generations : (u.generations = t.generations) ∨ (u.generations = t.generations++[g] ∧ g.status = .staging ∧ ∀ other ∈ t.generations, other.id ≠ g.id))
    (own : ∃ g ∈ u.generations, g.id = id ∧ g.status = .staging)
    (items : u.items = t.items++rows) (keyed : Keyed GenerationItem.key u.items) (fine : ∀ row ∈ u.items, row.item.check)
    (mine : ∀ row ∈ rows, row.generation = id) (acceptedMore : u.accepted = t.accepted++pages)
    (law : ∀ item, (∃ row ∈ rows, row.item = item) ↔ ∃ page ∈ pages, item ∈ page.items) (theirs : ∀ page ∈ pages, page.generation = id) :
    Mirrored u ∧ ∀ g ∈ t.generations, g.status ≠ .staging → g ∈ u.generations ∧ u.itemsOf g.id = t.itemsOf g.id := by
  have kept : ∀ g ∈ t.generations, g ∈ u.generations := fun g mem => by
    rcases generations with same | ⟨more,_⟩
    · exact same ▸ mem
    exact more ▸ mem_append_left _ mem
  have old : ∀ g ∈ u.generations, g ∈ t.generations ∨ g.status = .staging := fun other mem => by
    rcases generations with same | ⟨more,staging,_⟩
    · exact .inl (same ▸ mem)
    rw [more] at mem
    rcases mem_snoc.mp mem with before | rfl
    · exact .inl before
    exact .inr staging
  have unique : Keyed Generation.id u.generations := by
    rcases generations with same | ⟨more,_,fresh⟩
    · exact same ▸ mirrored.generations
    exact more ▸ mirrored.generations.add fresh
  obtain ⟨_,there,ownId,staging⟩ := own
  obtain ⟨contents,apart⟩ := appended_contents mirrored.toContents id rows pages unique (fun g mem => mem_map_of_mem (kept g mem))
    (ownId ▸ mem_map_of_mem there) items keyed fine mine acceptedMore law theirs
  have others : ∀ g ∈ t.generations, g.status ≠ .staging → g ∈ u.generations ∧ u.itemsOf g.id = t.itemsOf g.id := fun g mem status => by
    refine ⟨kept g mem,apart g.id fun same => ?_⟩
    cases unique.unique (kept g mem) there (same.trans ownId.symm)
    exact status staging
  have current : u.current = t.current := by
    unfold Tables.current
    rw [active,events]
    cases is : t.activeGeneration with
    | none => rfl
    | some other =>
      obtain ⟨g,mem,rfl,status,_⟩ := mirrored.named other is
      have standing : g.status ≠ .staging := fun staging => by
        rw [status] at staging
        cases staging
      simp only [(others g mem standing).2]
  refine ⟨⟨contents,?_,?_,fun g mem status => ?_,fun other is => ?_,fun g mem status => ?_,?_,?_,?_,?_⟩,others⟩
  · rw [rowsSame]; exact mirrored.rows
  · rw [rowsSame]; exact mirrored.checks
  · rw [active]
    rcases old g mem with before | staging
    · exact mirrored.active g before status
    rw [staging] at status
    cases status
  · rw [active] at is
    obtain ⟨g,mem,named,status,numbers⟩ := mirrored.named other is
    rw [events,sequence]
    exact ⟨g,kept g mem,named,status,numbers⟩
  · rw [active]
    rcases old g mem with before | staging
    · exact mirrored.activated g before status
    exact absurd staging status
  · rw [active,events]; exact mirrored.idle
  · rw [rowsSame,current]; exact mirrored.current
  · rw [entities]; exact mirrored.entities
  rw [entities,current]; exact mirrored.agree

theorem received_kept (valid : Valid t) (fresh : ∀ other ∈ t.receipts, other.deliveryId ≠ receipt.deliveryId)
    (some_ : t.checkpoint.isSome → moved.isSome)
    (active : ({ t with checkpoint := moved } : Tables).activeGeneration = t.activeGeneration) (sequence : ({ t with checkpoint := moved } : Tables).sequence = t.sequence) :
    Kept t { t with checkpoint := moved,receipts := t.receipts++[receipt] } := by
  have later : Later t { t with checkpoint := moved,receipts := t.receipts++[receipt] } :=
    ⟨Nat.le_of_eq sequence.symm,some_,fun given => (congrArg Option.isSome active).trans given,prefix_append _ _,fun row mem => ⟨row,mem,rfl⟩,
      fun g mem other => ⟨g,mem,rfl,rfl,other,rfl⟩,prefix_rfl,prefix_rfl⟩
  exact ⟨⟨valid.mirrored.congr active sequence rfl rfl rfl rfl rfl rfl,valid.taken.received fresh rfl (.inl rfl),valid.staged.congr rfl rfl,
    fun p mem => (valid.promotions p mem).later later⟩,later,.still rfl rfl⟩

theorem pageBatch_kept (valid : Valid t) (staging : ∀ g, generation = some g → g.status = .staging)
    (done : pageBatch delivery minted snapshotHash pageNumber pageCount itemCount items checkpoint generation existing t = some u) : Kept t u := by
  obtain ⟨moved,ensured,active,sequence,present⟩ := ensureCheckpoint_same t
  unfold pageBatch at done
  rw [ensured] at done active sequence present
  obtain ⟨v,inserted,rest⟩ := Option.bind_eq_some_iff.mp done
  obtain ⟨guard,fresh,rfl⟩ := insertReceipt_some inserted
  rw [Bool.and_eq_true,Bool.and_eq_true] at guard
  split at rest
  · cases rest
    exact received_kept valid fresh (fun _ => present) active sequence
  obtain ⟨v,generated,rest⟩ := Option.bind_eq_some_iff.mp rest
  obtain ⟨w,paged,rest⟩ := Option.bind_eq_some_iff.mp rest
  obtain ⟨x,itemed,rfl⟩ := Option.map_eq_some_iff.mp rest
  obtain ⟨_,page⟩ := Option.ite_none_right_eq_some.mp paged
  cases page
  -- The generation that was read, or the one the batch inserts.
  have shape : ∃ generations, v = { t with checkpoint := moved,receipts := t.receipts++[delivery.receipt .completed],generations } ∧
      (generations = t.generations ∨ ∃ g : Generation, generations = t.generations++[g] ∧ g.status = .staging ∧ ∀ other ∈ t.generations, other.id ≠ g.id) ∧
      ∃ g ∈ generations, g.id = (generation.map Generation.id).getD minted ∧ g.status = .staging := by
    cases read : generation with
    | some g =>
      rw [read] at generated guard
      cases generated
      obtain ⟨_,mem,same⟩ := any_eq_true.mp guard.1.2
      cases of_decide_eq_true same
      exact ⟨t.generations,rfl,.inl rfl,g,mem,rfl,staging g read⟩
    | none =>
      rw [read] at generated
      obtain ⟨apart,is⟩ := insertGeneration_some generated
      cases is
      exact ⟨_,rfl,.inr ⟨_,rfl,rfl,apart⟩,_,mem_append_right _ (mem_singleton_self _),rfl,rfl⟩
  obtain ⟨generations,rfl,grown,own⟩ := shape
  obtain ⟨rfl,keyed,fine⟩ := insertItems_some itemed valid.mirrored.items valid.mirrored.fine
  obtain ⟨g,grownBy⟩ : ∃ g : Generation, generations = t.generations ∨
      (generations = t.generations++[g] ∧ g.status = .staging ∧ ∀ other ∈ t.generations, other.id ≠ g.id) := by
    rcases grown with same | ⟨g,more⟩
    · obtain ⟨g,_⟩ := own
      exact ⟨g,.inl same⟩
    exact ⟨g,.inr more⟩
  let id := (generation.map Generation.id).getD minted
  let after : Tables := { t with
    checkpoint := moved,receipts := t.receipts++[delivery.receipt .completed],generations
    pages := t.pages++[⟨id,pageNumber,items.length,.body delivery.payloadHash⟩]
    items := t.items++items.map fun item => ⟨id,pageNumber,item⟩
    accepted := t.accepted++[⟨id,pageNumber,items⟩],taken := t.taken++[delivery.deliveryId] }
  obtain ⟨mirrored,others⟩ := accepting_mirrored (u := after) (g := g) valid.mirrored id (items.map fun item => ⟨id,pageNumber,item⟩)
    [⟨id,pageNumber,items⟩] active sequence rfl rfl rfl grownBy own rfl keyed fine
    (fun row mem => by
      obtain ⟨_,_,rfl⟩ := mem_map.mp mem
      rfl) rfl
    (fun item => by
      simp only [mem_map,mem_singleton,exists_eq_left]
      constructor
      · rintro ⟨_,⟨_,mem,rfl⟩,rfl⟩
        exact mem
      exact fun mem => ⟨_,⟨item,mem,rfl⟩,rfl⟩)
    (fun page mem => by
      cases mem_singleton.mp mem
      rfl)
  have later : Later t after := ⟨Nat.le_of_eq sequence.symm,fun _ => present,fun given => (congrArg Option.isSome active).trans given,
    prefix_append _ _,fun row mem => ⟨row,mem,rfl⟩,
    fun other mem status => ⟨other,(others other mem status).1,rfl,rfl,status,(others other mem status).2⟩,prefix_rfl,prefix_rfl⟩
  have unknown : ∀ other ∈ t.receipts, other.deliveryId ≠ (delivery.receipt .completed).deliveryId := fresh
  exact ⟨⟨mirrored,valid.taken.received unknown rfl (.inr rfl),valid.staged.congr rfl rfl,fun p mem => (valid.promotions p mem).later later⟩,
    later,.still rfl rfl⟩
end LedgeTopOps.CatalogMirror
