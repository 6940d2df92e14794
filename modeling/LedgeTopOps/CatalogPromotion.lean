import LedgeTopOps.CatalogActivation
import Mathlib.Data.List.Perm.Subperm
import Mathlib.Data.List.Range

namespace LedgeTopOps.CatalogMirror
open List KeyedRows UpsertedRows AtomicPrograms
open Bool (and_eq_true not_eq_true')

section
variable {t : Tables}

theorem mem_snapshotPages : page ∈ t.snapshotPages registry snapshot ↔ page ∈ t.stagedPages ∧ page.registryId = registry ∧ page.snapshotId = snapshot := by
  unfold Tables.snapshotPages
  rw [mem_filter,and_eq_true,decide_eq_true_eq,decide_eq_true_eq]

theorem mem_snapshotItems : item ∈ t.snapshotItems registry snapshot ↔
    ∃ row ∈ t.stagedItems, row.registryId = registry ∧ row.snapshotId = snapshot ∧ row.item = item := by
  unfold Tables.snapshotItems
  simp only [mem_map,mem_filter,and_eq_true,decide_eq_true_eq,and_assoc]

theorem snapshotPages_indices (staged : Staged t) : ((t.snapshotPages registry snapshot).map InventoryPage.pageIndex).Nodup := by
  refine pairwise_map.mpr (pairwise_filter.mpr ((pairwise_map.mp staged.pages).imp fun {one other} apart mine its same => apart ?_))
  rw [and_eq_true,decide_eq_true_eq,decide_eq_true_eq] at mine its
  exact Prod.ext (mine.1.trans its.1.symm) (Prod.ext (mine.2.trans its.2.symm) same)

theorem snapshotItems_keyed (staged : Staged t) : Keyed Item.publicId (t.snapshotItems registry snapshot) := by
  unfold Keyed Tables.snapshotItems
  rw [map_map]
  refine pairwise_map.mpr (pairwise_filter.mpr ((pairwise_map.mp staged.items).imp fun {one other} apart mine its same => apart ?_))
  rw [and_eq_true,decide_eq_true_eq,decide_eq_true_eq] at mine its
  exact Prod.ext (mine.1.trans its.1.symm) (Prod.ext (mine.2.trans its.2.symm) same)

theorem own_items (staged : Staged t) (stored : page ∈ t.stagedPages) {row : StagedItem} (there : row ∈ t.stagedItems)
    (under : page.registryId = row.registryId ∧ page.snapshotId = row.snapshotId ∧ page.pageIndex = row.pageIndex)
    (count : (t.stagedItems.filter fun item => item.registryId = page.registryId && item.snapshotId = page.snapshotId && item.pageIndex = page.pageIndex).length =
      page.items.length) : row.item ∈ page.items := by
  let mk (item : Item) : StagedItem := ⟨page.registryId,page.snapshotId,page.pageIndex,item⟩
  have distinct : (page.items.map mk).Nodup := by
    refine Nodup.of_map StagedItem.key ?_
    rw [map_map]
    exact pairwise_map.mpr ((pairwise_map.mp (staged.distinct page stored)).imp fun apart same => apart (Prod.mk.inj (Prod.mk.inj same).2).2)
  have inside : page.items.map mk ⊆ t.stagedItems.filter fun item =>
      item.registryId = page.registryId && item.snapshotId = page.snapshotId && item.pageIndex = page.pageIndex := fun one mem => by
    obtain ⟨item,listed,rfl⟩ := mem_map.mp mem
    refine mem_filter.mpr ⟨staged.whole page stored item listed,?_⟩
    simp only [mk,decide_true,Bool.and_self]
  have whole := (subperm_of_subset distinct inside).perm_of_length_le (by
    rw [count,length_map])
  have found : row ∈ page.items.map mk := whole.symm.subset (mem_filter.mpr ⟨there,by
    simp only [under.1,under.2.1,under.2.2,decide_true,Bool.and_self]⟩)
  obtain ⟨_,listed,rfl⟩ := mem_map.mp found
  exact listed
end

structure Complete (authority : PromotionAuthority) (t : Tables) : Prop where
  numbers : ((t.snapshotPages authority.registryId authority.snapshotId).map InventoryPage.pageIndex).Perm
    (range (t.snapshotPages authority.registryId authority.snapshotId).length)
  last : ∀ page ∈ t.snapshotPages authority.registryId authority.snapshotId, page.nextCursor = none ↔
    page.pageIndex + 1 = (t.snapshotPages authority.registryId authority.snapshotId).length
  totals : ∀ page ∈ t.snapshotPages authority.registryId authority.snapshotId, page.totalCount = (t.snapshotItems authority.registryId authority.snapshotId).length
  items : ∀ item, item ∈ t.snapshotItems authority.registryId authority.snapshotId ↔
    ∃ page ∈ t.snapshotPages authority.registryId authority.snapshotId, item ∈ page.items

section
theorem max_bound {values : List Nat} {top value : Nat} (most : values.max? = some top) (mem : value ∈ values) : value ≤ top :=
  (List.max?_eq_some_iff.mp most).2 value mem

theorem min_bound {values : List Nat} {bottom value : Nat} (least : values.min? = some bottom) (mem : value ∈ values) : bottom ≤ value :=
  (List.min?_eq_some_iff.mp least).2 value mem

theorem snapshotGuard_complete (staged : Staged t) (guard : snapshotGuard authority expectedPages expectedItems t) :
    Complete authority t ∧ (t.snapshotPages authority.registryId authority.snapshotId).length = expectedPages := by
  unfold snapshotGuard at guard
  simp only [and_eq_true,decide_eq_true_eq,not_eq_true'] at guard
  obtain ⟨⟨⟨⟨⟨⟨⟨⟨⟨⟨⟨⟨⟨pages,some_⟩,count⟩,_⟩,_⟩,most⟩,leastTotal⟩,mostTotal⟩,terminal⟩,final⟩,_⟩,items⟩,matched⟩,_⟩ := guard
  generalize listed : t.snapshotPages authority.registryId authority.snapshotId = list at *
  have indices : (list.map InventoryPage.pageIndex).Nodup := listed ▸ snapshotPages_indices staged
  have filled : 1 ≤ list.length := by
    simp only [within,and_eq_true,decide_eq_true_eq] at some_
    exact some_.1
  have below : ∀ page ∈ list, page.pageIndex < list.length := fun page mem => by
    have bound := max_bound most (mem_map_of_mem mem)
    omega
  have unique : ∀ one ∈ list, ∀ other ∈ list, one.pageIndex = other.pageIndex → one = other :=
    fun one first other second same => inj_on_of_nodup_map indices first second same
  obtain ⟨a,terminals⟩ := length_eq_one_iff.mp terminal
  obtain ⟨b,finals⟩ := length_eq_one_iff.mp final
  have bFinal : b ∈ list ∧ b.pageIndex = expectedPages - 1 ∧ b.nextCursor = none := by
    have mem : b ∈ list.filter fun page => page.pageIndex = expectedPages - 1 && page.nextCursor.isNone := finals ▸ mem_singleton_self b
    obtain ⟨there,is⟩ := mem_filter.mp mem
    rw [and_eq_true,decide_eq_true_eq,Option.isNone_iff_eq_none] at is
    exact ⟨there,is⟩
  have onlyTerminal : ∀ page ∈ list, page.nextCursor = none → page = b := fun page mem ends => by
    have one : ∀ page ∈ list, page.nextCursor = none → page = a := fun page mem ends => by
      have found : page ∈ list.filter fun page => page.nextCursor.isNone := mem_filter.mpr ⟨mem,by rw [ends]; rfl⟩
      exact mem_singleton.mp (terminals ▸ found)
    exact (one page mem ends).trans (one b bFinal.1 bFinal.2.2).symm
  refine ⟨⟨?_,fun page mem => ⟨fun ends => ?_,fun final => ?_⟩,fun page mem => ?_,fun item => ⟨fun mem => ?_,fun found => ?_⟩⟩,pages⟩
  · rw [listed]
    refine (subperm_of_subset indices fun index mem => ?_).perm_of_length_le (by rw [length_range,length_map])
    obtain ⟨page,there,rfl⟩ := mem_map.mp mem
    exact mem_range.mpr (below page there)
  · rw [listed] at mem ⊢
    rw [onlyTerminal page mem ends]
    omega
  · rw [listed] at mem final
    rw [unique page mem b bFinal.1 (by omega)]
    exact bFinal.2.2
  · rw [listed] at mem
    have high := max_bound mostTotal (mem_map_of_mem mem)
    have low := min_bound leastTotal (mem_map_of_mem mem)
    omega
  · obtain ⟨row,there,registry,snapshot,rfl⟩ := mem_snapshotItems.mp mem
    obtain ⟨page,stored,under⟩ := staged.owned row there
    have inList : page ∈ t.snapshotPages authority.registryId authority.snapshotId :=
      mem_snapshotPages.mpr ⟨stored,under.1.trans registry,under.2.1.trans snapshot⟩
    refine ⟨page,inList,own_items staged stored there under ?_⟩
    unfold pageCountMismatch at matched
    have equal := any_eq_false.mp matched page inList
    rw [decide_eq_true_eq,ne_eq,not_not] at equal
    exact equal
  obtain ⟨page,mem,listedItem⟩ := found
  obtain ⟨stored,registry,snapshot⟩ := mem_snapshotPages.mp mem
  exact mem_snapshotItems.mpr ⟨_,staged.whole page stored item listedItem,registry,snapshot,rfl⟩

theorem promoteBatch_kept (valid : Valid t)
    (seen : checked <+: t.snapshotPages authority.registryId authority.snapshotId) (read : checkpoint.isSome → t.checkpoint.isSome)
    (done : promoteBatch authority checked checkpoint t = some u) : Kept t u ∧ ∃ p ∈ u.promotions, p.authority = authority := by
  unfold promoteBatch at done
  split at done
  · cases done
  rename_i granted
  rw [not_eq_true',Bool.not_eq_false] at granted
  unfold authorityGuard at granted
  simp only [and_eq_true,not_eq_true',decide_eq_true_eq] at granted
  obtain ⟨⟨⟨⟨_,expected⟩,_⟩,clean⟩,guard⟩ := granted
  obtain ⟨complete,count⟩ := snapshotGuard_complete valid.staged guard
  have same : checked = t.snapshotPages authority.registryId authority.snapshotId := seen.eq_of_length count.symm
  obtain ⟨v,inserted,rest⟩ := Option.bind_eq_some_iff.mp done
  obtain ⟨fresh,rfl⟩ := insertGeneration_some inserted
  obtain ⟨w,paged,rest⟩ := Option.bind_eq_some_iff.mp rest
  obtain ⟨pages,rfl⟩ := insertPages_some paged
  obtain ⟨x,itemed,rest⟩ := Option.bind_eq_some_iff.mp rest
  obtain ⟨rfl,keyed,fine⟩ := insertItems_some itemed valid.mirrored.items valid.mirrored.fine
  obtain ⟨y,mirrored,rest⟩ := Option.bind_eq_some_iff.mp rest
  obtain ⟨rows,entities,rfl,renewed⟩ := mirror_some mirrored valid.mirrored.rows valid.mirrored.checks (snapshotItems_keyed valid.staged) clean
    valid.mirrored.entities
  obtain ⟨free,is⟩ := Option.ite_none_left_eq_some.mp rest
  let g : Generation := ⟨authority.generation,authority.sourceGeneration,authority.expectedSourceSequence + 1,authority.snapshotId,checked.length,
    itemCount checked,.active,true⟩
  let moved : Checkpoint := ⟨some authority.generation,authority.sourceGeneration,authority.expectedSourceSequence + 1⟩
  let staged := t.stagedItems.filter fun item => item.registryId = authority.registryId && item.snapshotId = authority.snapshotId
  let found := t.snapshotPages authority.registryId authority.snapshotId
  let items := t.snapshotItems authority.registryId authority.snapshotId
  let after : Tables := { t with
    checkpoint := if checkpoint.isNone then some moved else
      t.checkpoint.map fun current => if current.sourceSequence = authority.expectedSourceSequence then moved else current
    generations := (t.generations++[g]).map (Generation.superseded authority.generation)
    pages,items := t.items++staged.map fun item => ⟨authority.generation,item.pageIndex + 1,item.item⟩
    rows,entities,accepted := t.accepted++found.map fun page => ⟨authority.generation,page.pageIndex + 1,page.items⟩
    events := [],promotions := t.promotions++[⟨authority,checked,found,items⟩] }
  have result : u = after := (Option.some.inj is).symm
  -- Whichever way the checkpoint is written it names the new generation.
  have checkpointAfter : after.checkpoint = some moved := by
    show (if checkpoint.isNone then some moved else
      t.checkpoint.map fun current => if current.sourceSequence = authority.expectedSourceSequence then moved else current) = some moved
    split
    · rfl
    rename_i was
    obtain ⟨_,now⟩ := Option.isSome_iff_exists.mp (read (by
      rw [Option.isNone_iff_eq_none] at was
      exact Option.isSome_iff_ne_none.mpr was))
    rw [now,Option.map_some,if_pos ((sequence_of now).1.symm.trans expected)]
  obtain ⟨sequence,active⟩ := sequence_of checkpointAfter
  have unowned : ∀ row ∈ t.items, row.generation ≠ authority.generation := fun row mem equal => by
    obtain ⟨other,there,owns⟩ := valid.mirrored.owned row mem
    exact fresh other there (owns.trans equal)
  have ids : after.generations.map Generation.id = t.generations.map Generation.id++[authority.generation] := by
    rw [map_map,show Generation.id ∘ Generation.superseded authority.generation = Generation.id from funext fun row => (superseded_same _ row).1, map_append]
    rfl
  have own : g ∈ after.generations := by
    refine mem_map.mpr ⟨g,mem_append_right _ (mem_singleton_self _),if_neg ?_⟩
    rw [and_eq_true,decide_eq_true_eq,decide_eq_true_eq]
    exact fun both => both.2 rfl
  obtain ⟨contents,apart⟩ := appended_contents (u := after) valid.mirrored.toContents authority.generation
    (staged.map fun item => ⟨authority.generation,item.pageIndex + 1,item.item⟩) (found.map fun page => ⟨authority.generation,page.pageIndex + 1,page.items⟩)
    (by
      unfold Keyed
      rw [ids]
      refine nodup_append.mpr ⟨valid.mirrored.generations,nodup_singleton _,fun id there other here equal => ?_⟩
      obtain ⟨row,mem,named⟩ := mem_map.mp there
      exact fresh row mem (named.trans (equal.trans (mem_singleton.mp here))))
    (fun row mem => ids ▸ mem_append_left _ (mem_map_of_mem mem)) (ids ▸ mem_append_right _ (mem_singleton_self _))
    rfl keyed fine
    (fun row mem => by
      obtain ⟨_,_,rfl⟩ := mem_map.mp mem
      rfl) rfl
    (fun item => by
      have law := complete.items item
      rw [mem_snapshotItems] at law
      constructor
      · rintro ⟨_,mem,rfl⟩
        obtain ⟨row,there,rfl⟩ := mem_map.mp mem
        obtain ⟨stored,which⟩ := mem_filter.mp there
        rw [and_eq_true,decide_eq_true_eq,decide_eq_true_eq] at which
        obtain ⟨_,listed,holds⟩ := law.mp ⟨row,stored,which.1,which.2,rfl⟩
        exact ⟨_,mem_map_of_mem listed,holds⟩
      rintro ⟨_,mem,holds⟩
      obtain ⟨page,listed,rfl⟩ := mem_map.mp mem
      obtain ⟨_,stored,registry,snapshot,is⟩ := law.mpr ⟨page,listed,holds⟩
      refine ⟨_,mem_map_of_mem (mem_filter.mpr ⟨stored,?_⟩),is⟩
      rw [and_eq_true,decide_eq_true_eq,decide_eq_true_eq]
      exact ⟨registry,snapshot⟩)
    (fun page mem => by
      obtain ⟨_,_,rfl⟩ := mem_map.mp mem
      rfl)
  have itemsAre : after.itemsOf authority.generation = items := by
    show ({ t with items := t.items++staged.map fun item => ⟨authority.generation,item.pageIndex + 1,item.item⟩ } : Tables).itemsOf _ = _
    rw [itemsOf_append]
    have before : t.itemsOf authority.generation = [] := by
      unfold Tables.itemsOf
      rw [filter_eq_nil_iff.mpr fun row mem equal => unowned row mem (of_decide_eq_true equal)]
      rfl
    have all : (staged.map fun item => (⟨authority.generation,item.pageIndex + 1,item.item⟩ : GenerationItem)).filter
        (·.generation = authority.generation) = staged.map fun item => ⟨authority.generation,item.pageIndex + 1,item.item⟩ :=
      filter_eq_self.mpr fun row mem => by
        obtain ⟨_,_,rfl⟩ := mem_map.mp mem
        exact decide_eq_true rfl
    rw [before,all,nil_append,map_map]
    rfl
  obtain ⟨mirror,current⟩ := renewed_mirrored (u := after) contents renewed rfl rfl rfl active ⟨g,own,rfl,rfl,sequence⟩ (fun row inside status => by
      obtain ⟨old,_,rfl⟩ := mem_map.mp inside
      exact (superseded_same _ old).1.trans ((superseded_same _ old).2.2.2 status).2) itemsAre
  have step : after.sequence = t.sequence + 1 := by
    rw [sequence,expected]
  have later : Later t after := ⟨step ▸ Nat.le_succ _,fun _ => by rw [checkpointAfter]; rfl,fun _ => by rw [active]; rfl,prefix_rfl,renewed.kept,
    fun row inside status => ⟨row.superseded authority.generation,mem_map_of_mem (mem_append_left _ inside),(superseded_same _ row).1,
      (superseded_same _ row).2.1,(superseded_same _ row).2.2.1 status,apart row.id (fresh row inside)⟩,prefix_rfl,prefix_append _ _⟩
  have promoted : Promoted after ⟨authority,checked,found,items⟩ := ⟨same,fun page mem => mem_snapshotPages.mp mem,complete.numbers,complete.last,
    complete.totals,complete.items,snapshotItems_keyed valid.staged,g,own,rfl,rfl,nofun,itemsAre⟩
  rw [result]
  refine ⟨⟨⟨mirror,⟨valid.taken.receipts,valid.taken.once,valid.taken.known⟩,valid.staged.congr rfl rfl,fun p inside => ?_⟩,later,
    ⟨fun e equal => ?_,fun p equal => ?_,.inr ⟨_,rfl⟩⟩⟩,_,mem_append_right _ (mem_singleton_self _),rfl⟩
  · rcases mem_snoc.mp inside with old | rfl
    · exact (valid.promotions p old).later later
    · exact promoted
  · exact absurd equal (append_ne_nil_of_right_ne_nil _ (cons_ne_nil _ _)).symm
  have is : p = ⟨authority,checked,found,items⟩ := (singleton_inj.mp (append_cancel_left equal)).symm
  rw [is]
  exact ⟨step,sequence,current,active⟩
end

variable {items : List Item}

theorem insertStagedItems_some {row : Item → StagedItem} (done : items.foldlM (fun (t : Tables) item => t.insertStagedItem (row item)) t = some u)
    (keyed : Keyed StagedItem.key t.stagedItems) :
    u = { t with stagedItems := t.stagedItems++items.map row } ∧ Keyed StagedItem.key (t.stagedItems++items.map row) ∧
      ∀ x ∈ items.map row, ∃ page ∈ t.stagedPages, page.registryId = x.registryId ∧ page.snapshotId = x.snapshotId ∧ page.pageIndex = x.pageIndex := by
  refine foldlM_rec (fun (done : List Item) (u : Tables) => u = { t with stagedItems := t.stagedItems++done.map row } ∧
      Keyed StagedItem.key (t.stagedItems++done.map row) ∧
      ∀ x ∈ done.map row, ∃ page ∈ t.stagedPages, page.registryId = x.registryId ∧ page.snapshotId = x.snapshotId ∧ page.pageIndex = x.pageIndex) ?_ ?_ done
  · rw [map_nil,append_nil]
    exact ⟨rfl,keyed,fun _ empty => (not_mem_nil empty).elim⟩
  intro _ x _ v w _ holds moved
  obtain ⟨rfl,inner,owned⟩ := holds
  obtain ⟨new,is⟩ := Option.ite_none_right_eq_some.mp moved
  cases is
  rw [and_eq_true,not_eq_true',any_eq_false,any_eq_true] at new
  obtain ⟨⟨page,stored,under⟩,apart⟩ := new
  rw [map_append,←append_assoc]
  refine ⟨rfl,inner.add fun other mem same => apart other mem ?_,fun other mem => ?_⟩
  · have parts := Prod.mk.inj same
    rw [and_eq_true,and_eq_true,decide_eq_true_eq,decide_eq_true_eq,decide_eq_true_eq]
    exact ⟨⟨parts.1,(Prod.mk.inj parts.2).1⟩,(Prod.mk.inj parts.2).2⟩
  rcases mem_snoc.mp mem with old | rfl
  · exact owned other old
  rw [and_eq_true,and_eq_true,decide_eq_true_eq,decide_eq_true_eq,decide_eq_true_eq] at under
  exact ⟨page,stored,under.1.1,under.1.2,under.2⟩

theorem stageBatch_some (staged : Staged t) (done : stageBatch page t = some u) :
    ∃ pages, u = { t with stagedPages := t.stagedPages++pages,stagedItems := t.stagedItems++page.items.map fun item =>
        ⟨page.registryId,page.snapshotId,page.pageIndex,item⟩ } ∧
      ((t.accepts page ∧ pages = [page] ∧ ∀ other ∈ t.stagedPages, other.key ≠ page.key) ∨ (t.accepts page = false ∧ pages = [])) ∧
      Keyed StagedItem.key u.stagedItems ∧
      ∀ x ∈ page.items.map (fun item => (⟨page.registryId,page.snapshotId,page.pageIndex,item⟩ : StagedItem)), ∃ page ∈ u.stagedPages,
        page.registryId = x.registryId ∧ page.snapshotId = x.snapshotId ∧ page.pageIndex = x.pageIndex := by
  obtain ⟨v,paged,rest⟩ := Option.bind_eq_some_iff.mp done
  split at paged
  · rename_i takes
    obtain ⟨apart,is⟩ := Option.ite_none_left_eq_some.mp paged
    cases is
    obtain ⟨rfl,keyed,owned⟩ := insertStagedItems_some rest staged.items
    refine ⟨[page],rfl,.inl ⟨takes,rfl,fun other mem same => apart ?_⟩,keyed,owned⟩
    have parts := Prod.mk.inj same
    refine any_eq_true.mpr ⟨other,mem,?_⟩
    unfold sameRow
    rw [and_eq_true,Bool.or_eq_true,and_eq_true,decide_eq_true_eq,decide_eq_true_eq,decide_eq_true_eq]
    exact ⟨parts.1.symm,.inl ⟨(Prod.mk.inj parts.2).1.symm,(Prod.mk.inj parts.2).2.symm⟩⟩
  rename_i refuses
  cases paged
  obtain ⟨rfl,keyed,owned⟩ := insertStagedItems_some rest staged.items
  exact ⟨[],by rw [append_nil],.inr ⟨Bool.not_eq_true _ ▸ refuses,rfl⟩,keyed,owned⟩

theorem stageBatch_kept (valid : Valid t) (distinct : Keyed Item.publicId page.items) (done : stageBatch page t = some u) :
    Kept t u ∧ (t.accepts page → page ∈ u.stagedPages) := by
  obtain ⟨pages,rfl,which,keyed,owned⟩ := stageBatch_some valid.staged done
  have onlyPage : ∀ other ∈ pages, other = page := fun other mem => by
    rcases which with ⟨_,rfl,_⟩ | ⟨_,rfl⟩
    · exact mem_singleton.mp mem
    cases mem
  have staged : Staged { t with stagedPages := t.stagedPages++pages,stagedItems := t.stagedItems++page.items.map fun item =>
        ⟨page.registryId,page.snapshotId,page.pageIndex,item⟩ } := by
    refine ⟨?_,keyed,fun row mem => ?_,fun other mem item listed => ?_,fun other mem => ?_⟩
    · rcases which with ⟨_,rfl,fresh⟩ | ⟨_,rfl⟩
      · exact valid.staged.pages.add fresh
      · rw [append_nil]
        exact valid.staged.pages
    · rcases mem_append.mp mem with old | new
      · obtain ⟨other,there,under⟩ := valid.staged.owned row old
        exact ⟨other,mem_append_left _ there,under⟩
      · exact owned row new
    · rcases mem_append.mp mem with old | new
      · exact mem_append_left _ (valid.staged.whole other old item listed)
      · cases onlyPage other new
        exact mem_append_right _ (mem_map_of_mem (f := fun item => (⟨page.registryId,page.snapshotId,page.pageIndex,item⟩ : StagedItem)) listed)
    rcases mem_append.mp mem with old | new
    · exact valid.staged.distinct other old
    cases onlyPage other new
    exact distinct
  have later : Later t { t with stagedPages := t.stagedPages++pages,stagedItems := t.stagedItems++page.items.map fun item =>
        ⟨page.registryId,page.snapshotId,page.pageIndex,item⟩ } :=
    ⟨Nat.le_refl _,id,id,prefix_rfl,fun row mem => ⟨row,mem,rfl⟩,fun g mem other => ⟨g,mem,rfl,rfl,other,rfl⟩,prefix_append _ _, prefix_rfl⟩
  refine ⟨⟨⟨valid.mirrored.congr rfl rfl rfl rfl rfl rfl rfl rfl,⟨valid.taken.receipts,valid.taken.once,valid.taken.known⟩,staged,
    fun p mem => (valid.promotions p mem).later later⟩,later,.still rfl rfl⟩,fun takes => ?_⟩
  rcases which with ⟨_,rfl,_⟩ | ⟨refuses,_⟩
  · exact mem_append_right _ (mem_singleton_self _)
  rw [takes] at refuses
  cases refuses
end LedgeTopOps.CatalogMirror
