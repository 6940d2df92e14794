import LedgeTopOps.CatalogHistory

namespace LedgeTopOps.CatalogMirror
open List KeyedRows AtomicPrograms StepRuns

structure Consistent (t : Tables) : Prop where
  totals : ∀ one ∈ t.stagedPages, ∀ other ∈ t.stagedPages, one.registryId = other.registryId → one.snapshotId = other.snapshotId →
    one.totalCount = other.totalCount
  sums : ∀ registry snapshot, itemCount (t.snapshotPages registry snapshot) = (t.snapshotItems registry snapshot).length
  bounded : ∀ page ∈ t.stagedPages, (t.snapshotItems page.registryId page.snapshotId).length ≤ page.totalCount
  distinct : ∀ registry snapshot, Keyed Item.publicId (t.snapshotItems registry snapshot)
  once : Keyed InventoryPage.key t.stagedPages

-- What a staging call has read still holds: the registry takes the page, with the snapshot's total and not too many
-- items; without it only an empty page is harmless.
def Fits (page : InventoryPage) (t : Tables) : Prop :=
  if t.accepts page = true then
    (∀ other ∈ t.snapshotPages page.registryId page.snapshotId, other.totalCount = page.totalCount) ∧
      (t.snapshotItems page.registryId page.snapshotId).length + page.items.length ≤ page.totalCount
  else page.items = []

def Unraced (system : World) (event : Event Nat Request) : Prop :=
  ∀ name page effect next handler, event = .call name → system.programs name = some (.stage page,.call effect next handler) →
    effect system.store ≠ system.store → Fits page system.store

section
variable {t : Tables} {page : InventoryPage} {snapshot : String}

theorem itemCount_append (pages more : List InventoryPage) : itemCount (pages++more) = itemCount pages + itemCount more := by
  unfold itemCount
  rw [map_append,foldl_append]
  exact @foldl_assoc Nat (· + ·) _ (more.map fun page => page.items.length) (itemCount pages) 0

theorem staged_pages (pages : List InventoryPage) (rows : List StagedItem) :
    ({ t with stagedPages := t.stagedPages++pages,stagedItems := t.stagedItems++rows } : Tables).snapshotPages registry snapshot =
      t.snapshotPages registry snapshot++pages.filter fun page => page.registryId = registry && page.snapshotId = snapshot := filter_append ..

theorem staged_items (pages : List InventoryPage) :
    ({ t with stagedPages := t.stagedPages++pages,stagedItems := t.stagedItems++page.items.map fun item =>
        ⟨page.registryId,page.snapshotId,page.pageIndex,item⟩ } : Tables).snapshotItems registry snapshot =
      t.snapshotItems registry snapshot++if page.registryId = registry ∧ page.snapshotId = snapshot then page.items else [] := by
  unfold Tables.snapshotItems
  rw [filter_append,map_append]
  congr 1
  split
  · rename_i same
    rw [filter_eq_self.mpr fun row mem => by
      obtain ⟨_,_,rfl⟩ := mem_map.mp mem
      simp only [same.1,same.2,decide_true,Bool.and_self]]
    rw [map_map]
    exact map_id' page.items
  rename_i other
  rw [filter_eq_nil_iff.mpr fun row mem both => by
    obtain ⟨_,_,rfl⟩ := mem_map.mp mem
    rw [Bool.and_eq_true,decide_eq_true_eq,decide_eq_true_eq] at both
    exact other both]
  rfl

theorem fits_consistent (valid : Valid u) (consistent : Consistent t) (takes : t.accepts page)
    (is : u = { t with stagedPages := t.stagedPages++[page],stagedItems := t.stagedItems++page.items.map fun item =>
      ⟨page.registryId,page.snapshotId,page.pageIndex,item⟩ }) : Consistent u ↔ Fits page t := by
  have pagesOf : ∀ registry snapshot, u.snapshotPages registry snapshot =
      t.snapshotPages registry snapshot++[page].filter fun page => page.registryId = registry && page.snapshotId = snapshot := fun _ _ => is ▸ staged_pages _ _
  have itemsOf : ∀ registry snapshot, u.snapshotItems registry snapshot =
      t.snapshotItems registry snapshot++if page.registryId = registry ∧ page.snapshotId = snapshot then page.items else [] := fun _ _ => is ▸ staged_items [page]
  have stored : u.stagedPages = t.stagedPages++[page] := congrArg Tables.stagedPages is
  unfold Fits
  rw [if_pos takes]
  constructor
  · intro after
    have own : page ∈ u.stagedPages := stored ▸ mem_append_right _ (mem_singleton_self page)
    refine ⟨fun other mem => ?_,?_⟩
    · obtain ⟨there,registry,snapshot⟩ := mem_snapshotPages.mp mem
      exact after.totals other (stored ▸ mem_append_left _ there) page own registry snapshot
    have bound := after.bounded page own
    rw [itemsOf,if_pos ⟨rfl,rfl⟩,length_append] at bound
    exact bound
  rintro ⟨totals,count⟩
  have mine : ∀ other ∈ t.stagedPages, other.registryId = page.registryId → other.snapshotId = page.snapshotId → other.totalCount = page.totalCount :=
    fun other there registry snapshot => totals other (mem_snapshotPages.mpr ⟨there,registry,snapshot⟩)
  refine ⟨fun one first other second registry snapshot => ?_,fun registry snapshot => ?_,fun other mem => ?_,fun _ _ => snapshotItems_keyed valid.staged,
    valid.staged.pages⟩
  · rw [stored,mem_append,mem_singleton] at first second
    rcases first with before | rfl
    · rcases second with also | rfl
      · exact consistent.totals one before other also registry snapshot
      · exact mine one before registry snapshot
    rcases second with also | rfl
    · exact (mine other also registry.symm snapshot.symm).symm
    rfl
  · rw [pagesOf,itemsOf,itemCount_append,length_append,consistent.sums]
    congr 1
    by_cases same : page.registryId = registry ∧ page.snapshotId = snapshot
    · rw [if_pos same,filter_cons_of_pos (by simp only [same.1,same.2,decide_true,Bool.and_self])]
      exact Nat.zero_add _
    rw [if_neg same,filter_cons_of_neg (by
      rw [Bool.and_eq_true,decide_eq_true_eq,decide_eq_true_eq]
      exact same)]
    rfl
  rw [itemsOf,length_append]
  rw [stored,mem_append,mem_singleton] at mem
  rcases mem with before | rfl
  · split
    · rename_i same
      rw [←same.1,←same.2,mine other before same.1.symm same.2.symm]
      exact count
    · exact consistent.bounded other before
  rw [if_pos ⟨rfl,rfl⟩]
  exact count

theorem staged_consistent (valid : Valid t) (consistent : Consistent t) (distinct : Keyed Item.publicId page.items) (done : stageBatch page t = some u) :
    Consistent u ↔ Fits page t := by
  obtain ⟨kept,_⟩ := stageBatch_kept valid distinct done
  obtain ⟨pages,is,which,_,_⟩ := stageBatch_some valid.staged done
  rcases which with ⟨takes,rfl,_⟩ | ⟨refuses,rfl⟩
  · exact fits_consistent kept.valid consistent takes is
  unfold Fits
  rw [if_neg (Bool.not_eq_true _ ▸ refuses)]
  constructor
  · intro after
    have sums := after.sums page.registryId page.snapshotId
    rw [is,staged_pages,staged_items,if_pos ⟨rfl,rfl⟩,filter_nil,append_nil,length_append,consistent.sums] at sums
    exact eq_nil_of_length_eq_zero (by omega)
  intro empty
  rw [empty,map_nil,append_nil,append_nil] at is
  exact is ▸ consistent
end

section
variable {after : World} {history : List (Transition World (Event Nat Request))}

theorem Consistent.congr (consistent : Consistent t) (same : u.staging = t.staging) : Consistent u := by
  obtain ⟨pages,items⟩ := Prod.mk.inj same
  have pagesOf : ∀ registry snapshot, u.snapshotPages registry snapshot = t.snapshotPages registry snapshot := fun _ _ => by
    unfold Tables.snapshotPages
    rw [pages]
  have itemsOf : ∀ registry snapshot, u.snapshotItems registry snapshot = t.snapshotItems registry snapshot := fun _ _ => by
    unfold Tables.snapshotItems
    rw [items]
  refine ⟨?_,?_,?_,?_,?_⟩
  · rw [pages]; exact consistent.totals
  · simp only [pagesOf,itemsOf]; exact consistent.sums
  · simp only [pages,itemsOf]; exact consistent.bounded
  · simp only [itemsOf]; exact consistent.distinct
  rw [pages]; exact consistent.once

theorem empty_consistent : Consistent .empty :=
  ⟨nofun,fun _ _ => rfl,nofun,fun _ _ => nodup_nil,nodup_nil⟩

def Distinct (_ : Nat) : Request → Prop
  | .stage page => Keyed Item.publicId page.items
  | _ => True

theorem distinct_entered (path : Runs (Step setting) (System.initial .empty) events after) :
    ∀ name request program, after.programs name = some (request,program) → Distinct name request :=
  entered_requests (fun name request _ holds => by
    cases request with
    | stage => exact holds
    | deliver | promote => trivial) path

theorem step_consistent (orderly : Orderly Valid terms before) (distinct : ∀ name request program, before.programs name = some (request,program) → Distinct name request)
    (consistent : Consistent before.store) (taken : Step setting before event after) : Consistent after.store ↔ Unraced before event := by
  cases taken with
  | start | failed => exact iff_of_true consistent nofun
  | outside moved =>
    obtain ⟨_,rfl⟩ := moved
    exact iff_of_true (consistent.congr rfl) nofun
  | call current may =>
    rename_i programs request name store effect next handler
    have own := (orderly.obeys _ _ _ current _ (discipline.same name request _) orderly.valid).1.1.2
    cases request with
    | deliver | promote =>
      refine iff_of_true (consistent.congr own) fun other page _ _ _ called found => ?_
      cases called
      cases current.symm.trans found
    | stage page =>
      have unraced : Unraced ⟨store,programs⟩ (.call name) ↔ (effect store ≠ store → Fits page store) := by
        constructor
        · exact fun holds => holds name page effect next handler rfl current
        intro holds _ _ _ _ _ called found
        cases called
        cases current.symm.trans found
        exact holds
      by_cases idle : effect store = store
      · exact iff_of_true (idle.symm ▸ consistent) (unraced.mpr fun moves => absurd idle moves)
      rw [unraced,staged_consistent orderly.valid consistent (distinct name (.stage page) _ current) (own.resolve_left idle)]
      exact ⟨fun fits _ => fits,fun holds => holds idle⟩

theorem promotion_step (path : Runs (Recorded (Step setting)) (System.initial .empty) events after) :
    ∀ p ∈ after.store.promotions, ∃ taken ∈ events, taken.after.store.promotions = taken.before.store.promotions++[p] := by
  induction path with
  | nil => exact fun p mem => nomatch mem
  | @step earlier middle last after prior final ih =>
    obtain ⟨rfl,rfl,step⟩ := final
    intro p mem
    rcases (step_kept (reached prior.events) step).moves.grows with same | ⟨other,more⟩
    · obtain ⟨taken,there,grew⟩ := ih p (same ▸ mem)
      exact ⟨taken,mem_append_left _ there,grew⟩
    rw [more,mem_append,mem_singleton] at mem
    rcases mem with before | rfl
    · obtain ⟨taken,there,grew⟩ := ih p before
      exact ⟨taken,mem_append_left _ there,grew⟩
    exact ⟨last,mem_append_right _ (mem_singleton_self _),more⟩

structure Activated (history : List (Transition World (Event Nat Request))) (t : Tables) (authority : PromotionAuthority) (p : Promotion) : Prop where
  called : p.authority = authority
  promoted : Promoted t p
  step : ∃ taken ∈ history, taken.after.store.promotions = taken.before.store.promotions++[p] ∧
    taken.after.store.sequence = authority.expectedSourceSequence + 1 ∧ taken.after.store.activeGeneration = some authority.generation ∧
    taken.after.store.current = p.items

-- The snapshots are consistent in the states of a run as long as no staging call writes against what it has read.
structure Promotable (history : List (Transition World (Event Nat Request))) (after : World) : Prop where
  consistent : (∀ taken ∈ history, Consistent taken.after.store) ↔ ∀ taken ∈ history, Unraced taken.before taken.event
  duplicate : ∀ name page stored, after.programs name = some (.stage page,.done (.alreadyStaged stored)) → stored = page ∧ page ∈ after.store.stagedPages
  promoted : ∀ name authority generation sequence, after.programs name = some (.promote authority,.done (.promoted generation sequence)) →
    generation = authority.generation ∧ sequence = authority.expectedSourceSequence + 1 ∧ ∃ p, Activated history after.store authority p

theorem consistent_steps (path : Runs (Recorded (Step setting)) (System.initial .empty) history after) :
    ((∀ taken ∈ history, Consistent taken.after.store) ↔ ∀ taken ∈ history, Unraced taken.before taken.event) ∧
      ((∀ taken ∈ history, Consistent taken.after.store) → Consistent after.store) := by
  induction path with
  | nil => exact ⟨⟨fun _ _ empty => (not_mem_nil empty).elim,fun _ _ empty => (not_mem_nil empty).elim⟩,fun _ => empty_consistent⟩
  | @step earlier middle last after prior final ih =>
    obtain ⟨rfl,rfl,step⟩ := final
    obtain ⟨same,ends⟩ := ih
    have exact_ := fun before => step_consistent (reached prior.events) (distinct_entered prior.events) (ends before) step
    refine ⟨⟨fun all taken mem => ?_,fun all taken mem => ?_⟩,fun all => all last (mem_append_right _ (mem_singleton_self _))⟩
    · have before : ∀ taken ∈ earlier, Consistent taken.after.store := fun one there => all one (mem_append_left _ there)
      rcases mem_append.mp mem with old | new
      · exact same.mp before taken old
      cases mem_singleton.mp new
      exact (exact_ before).mp (all last mem)
    have before : ∀ taken ∈ earlier, Consistent taken.after.store := same.mpr fun one there => all one (mem_append_left _ there)
    rcases mem_append.mp mem with old | new
    · exact before taken old
    cases mem_singleton.mp new
    exact (exact_ before).mpr (all last mem)

theorem snapshots_promotable (path : Runs (Recorded (Step setting)) (System.initial .empty) history after) : Promotable history after := by
  have orderly := reached path.events
  refine ⟨(consistent_steps path).1,fun name page stored given => orderly.result given,fun name authority generation sequence given => ?_⟩
  obtain ⟨named,number,p,member,same⟩ := orderly.result given
  obtain ⟨taken,there,grew⟩ := promotion_step path p member
  obtain ⟨front,rest,split⟩ := append_of_mem there
  obtain ⟨earlier,step⟩ := path.reached split
  obtain ⟨_,sequence,current,active⟩ := (step_kept (reached earlier.events) step).moves.promotion p grew
  exact ⟨named,number,p,same,orderly.valid.promotions p member,taken,there,grew,same ▸ sequence,same ▸ active,current⟩
end

def sampleIdentity : SourceIdentity := ⟨"instance","application","epoch"⟩
def registered : World := System.initial { Tables.empty with registries := [⟨1,sampleIdentity,true⟩] }

theorem registering {after : World} (path : Runs (Recorded (Step setting)) registered events after) :
    Runs (Recorded (Step setting)) (System.initial .empty) (⟨System.initial .empty,.outside,registered⟩ :: events) after :=
  .cons ⟨rfl,rfl,.outside ⟨[⟨1,sampleIdentity,true⟩],rfl⟩⟩ path

def samplePage (index : Nat) (request : String) (total : Nat) (item : Item) (nextCursor : Option String) : InventoryPage :=
  ⟨1,sampleIdentity,index,request,"snapshot",total,[item],nextCursor⟩

def firstPage (total : Nat) : InventoryPage := samplePage 0 "request 0" total (itemNamed "roof" "v1" "Roof") (some "next")
def lastPage : InventoryPage := samplePage 1 "request 1" 2 (itemNamed "fence" "v1" "Fence") none

def racingPages : List (Event Nat Request) :=
  .start 0 (.stage (firstPage 1)) :: replicate 5 (.call 0)++
    .start 1 (.stage lastPage) :: replicate 5 (.call 1)++[.call 0,.call 1]

def racingPagesFinal : World := racingPages.foldl (System.play setting id) registered

theorem snapshots_mixed : ¬∀ history after, Runs (Recorded (Step setting)) (System.initial .empty) history after → Consistent after.store := by
  intro always
  have replays : registered.replays setting racingPages = true := by decide +kernel
  have consistent := always _ _ (registering (System.replayed replays))
  have mixed : racingPagesFinal.store.stagedPages = [firstPage 1,lastPage] := by decide +kernel
  have totals := consistent.totals (firstPage 1) (mixed ▸ .head _) lastPage (mixed ▸ .tail _ (.head _)) rfl rfl
  cases totals

def answerOf (world : World) (name : Nat) : Option Answer :=
  match world.programs name with
  | some (_,.done answer) => some answer
  | _ => none

def stagedPages : List (Event Nat Request) :=
  .start 0 (.stage (firstPage 2)) :: replicate 7 (.call 0)++
    .start 1 (.stage lastPage) :: replicate 7 (.call 1)++
    .start 2 (.promote ⟨1,sampleIdentity,"snapshot",0⟩) :: replicate 12 (.call 2)

def stagedFinal : World := stagedPages.foldl (System.play setting id) registered

theorem snapshots_promotable_example :
    Promotable (⟨System.initial .empty,.outside,registered⟩ :: trace (System.play setting id) registered stagedPages) stagedFinal ∧
      answerOf stagedFinal 2 = some (.promoted "ops-inventory:1:snapshot" 1) ∧
      stagedFinal.store.current = [itemNamed "roof" "v1" "Roof",itemNamed "fence" "v1" "Fence"] := by
  have replays : registered.replays setting stagedPages = true := by decide +kernel
  have promotable := snapshots_promotable (registering (System.replayed replays))
  have answered : answerOf stagedFinal 2 = some (.promoted "ops-inventory:1:snapshot" 1) := by decide +kernel
  have current : stagedFinal.store.current = [itemNamed "roof" "v1" "Roof",itemNamed "fence" "v1" "Fence"] := by decide +kernel
  exact ⟨promotable,answered,current⟩
end LedgeTopOps.CatalogMirror
