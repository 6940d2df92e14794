import LedgeTopOps.CatalogPromotion

namespace LedgeTopOps.CatalogMirror
open List KeyedRows UpsertedRows AtomicPrograms StepRuns
open Option (bind_eq_some_iff getD_none getD_some isSome_none isSome_some map_eq_some_iff)

def Known (t : Tables) (delivery : Delivery) : Prop :=
  ∃ receipt ∈ t.receipts, receipt.deliveryId = delivery.deliveryId ∧ receipt.payloadHash = delivery.payloadHash

def Holds (t : Tables) : Request → Answer → Prop
  | .deliver delivery _, .completed | .deliver delivery _, .ignored | .deliver delivery _, .duplicate => Known t delivery
  | .promote authority, .promoted generation sequence =>
    generation = authority.generation ∧ sequence = authority.expectedSourceSequence + 1 ∧ ∃ p ∈ t.promotions, p.authority = authority
  | .stage page, .staged stored | .stage page, .alreadyStaged stored => stored = page ∧ page ∈ t.stagedPages
  | _, _ => True

def Tables.staging (t : Tables) : List InventoryPage × List StagedItem := (t.stagedPages,t.stagedItems)

def Writes (s t : Tables) : Request → Prop
  | .stage page => t = s ∨ stageBatch page s = some t
  | _ => t.staging = s.staging

def terms (_ : Nat) (request : Request) : Terms Tables Answer where
  inside := Valid
  rely := Later
  guarantee s t _ := Kept s t ∧ Writes s t request
  post answer t := Holds t request answer

def setting : Setting Tables Nat Request Answer where
  code := code
  enter _ request _ := match request with
    | .stage page => Keyed Item.publicId page.items
    | _ => True
  may _ _ _ := True
  outside s t := ∃ registries, t = { s with registries }

abbrev World := System Tables Nat Request Answer

section
variable {after : Code}

theorem kept_still (valid : Valid t) : Kept t t := ⟨valid,Later.refl t,.still rfl rfl⟩

theorem writes_still (t : Tables) (request : Request) : Writes t t request := by
  cases request with
  | stage => exact .inl rfl
  | deliver | promote => rfl

theorem Known.later (known : Known s delivery) (later : Later s t) : Known t delivery := by
  obtain ⟨receipt,there,same⟩ := known
  exact ⟨receipt,later.receipts.subset there,same⟩

theorem Holds.later (holds : Holds s request answer) (later : Later s t) : Holds t request answer := by
  cases request with
  | deliver =>
    cases answer with
    | completed | ignored | duplicate => exact Known.later holds later
    | _ => trivial
  | promote =>
    cases answer with
    | promoted =>
      obtain ⟨id,number,p,there,same⟩ := holds
      exact ⟨id,number,p,later.promotions.subset there,same⟩
    | _ => trivial
  | stage =>
    cases answer with
    | staged | alreadyStaged => exact holds.imp_right (later.pages.subset ·)
    | _ => trivial

theorem obeys_reading {next} (failing : ∀ t, Obeys (terms name request) failed t)
    (going : ∀ t, Later s t → Valid t → Obeys (terms name request) (next t) t) : Obeys (terms name request) (.read failed next) s :=
  obeys_read (fun t valid => ⟨kept_still valid,writes_still t request⟩) fun t later valid => ⟨going t later valid,failing t⟩

theorem obeys_attempt (kept : ∀ t u, Later s t → Valid t → batch t = some u → Kept t u ∧ Writes t u request)
    (throwing : ∀ t, Obeys (terms name request) threw t) (failing : ∀ t, Obeys (terms name request) failed t)
    (going : ∀ t u w, Later s t → Valid t → batch t = some u → Later u w → Obeys (terms name request) after w) :
    Obeys (terms name request) (attempt batch threw failed after) s := by
  intro t later valid
  refine ⟨?_,failing t⟩
  cases done : batch t with
  | none =>
    simp only [done,getD_none,isSome_none,Bool.false_eq_true,if_false]
    exact ⟨⟨kept_still valid,writes_still t request⟩,throwing t⟩
  | some u =>
    simp only [done,getD_some,isSome_some,if_true]
    exact ⟨kept t u later valid done,obeys_reading failing fun w further _ => going t u w later valid done further⟩
end

section
variable {s t u : Tables}

theorem found_known (t : Tables) (delivery : Delivery) (found : find Receipt.deliveryId t.receipts delivery.deliveryId = some receipt)
    (same : receipt.payloadHash = delivery.payloadHash) : Known t delivery := by
  obtain ⟨there,named⟩ := find_some found
  exact ⟨receipt,there,named,same⟩

theorem raced_obeys (code : String) (s : Tables) : Obeys (terms name (.deliver delivery minted)) (raced delivery code) s := by
  refine obeys_reading (fun _ => trivial) fun t _ _ => ?_
  split
  · rename_i receipt found
    split
    · exact found_known t delivery found ‹_›
    trivial
  trivial

theorem looked {next} (going : ∀ t, Later s t → Valid t → Obeys (terms name (.deliver delivery minted)) (next t) t) :
    Obeys (terms name (.deliver delivery minted)) (.read (raced delivery "catalog-internal-error") next) s := obeys_reading (raced_obeys _) going

theorem received_known (done : u.receipts = t.receipts++[delivery.receipt status]) : Known u delivery :=
  ⟨_,done ▸ mem_append_right _ (mem_singleton_self _),rfl,rfl⟩

theorem folded_same {α β : Type} (reading : Tables → β) {f : Tables → α → Option Tables} (still : ∀ t x u, f t x = some u → reading u = reading t)
    {list : List α} (done : list.foldlM f t = some u) : reading u = reading t :=
  foldlM_rec (fun _ (u : Tables) => reading u = reading t) rfl (fun _ x _ v w _ holds moved => (still v x w moved).trans holds) done

def Tables.aside (t : Tables) : List Receipt × List InventoryPage × List StagedItem := (t.receipts,t.stagedPages,t.stagedItems)

theorem upsertRow_aside (t : Tables) (item : Item) (u : Tables) (done : t.upsertRow item = some u) : u.aside = t.aside := by
  obtain ⟨_,is⟩ := Option.ite_none_right_eq_some.mp done
  cases is
  rfl

theorem insertItem_aside (row : α → GenerationItem) (t : Tables) (x : α) (u : Tables) (done : t.insertItem (row x) = some u) : u.aside = t.aside := by
  obtain ⟨_,is⟩ := Option.ite_none_right_eq_some.mp done
  cases is
  rfl

theorem mirror_aside {sequence : Nat} (done : t.mirror generation sequence items = some u) : u.aside = t.aside := by
  obtain ⟨v,upserted,rfl⟩ := map_eq_some_iff.mp done
  have entities : ∀ (items : List Item) (t : Tables),
      (items.foldl (fun (t : Tables) item => t.upsertEntity ⟨item.publicId,item.sourceVersion,sequence,true⟩) t).aside = t.aside := fun items t =>
    foldl_rec (fun (_ : List Item) (u : Tables) => u.aside = t.aside) rfl fun _ _ _ _ _ holds => holds
  have before : v.aside = t.aside := folded_same (t := t.deactivate fun _ => true) Tables.aside upsertRow_aside upserted
  exact (entities items { v with entities := v.entities.map fun state => { state with active := false,sourceSequence := sequence } }).trans before

theorem received_aside (done : u.aside = ({ t with receipts := t.receipts++[delivery.receipt status] } : Tables).aside) :
    Known u delivery ∧ u.staging = t.staging :=
  ⟨received_known (Prod.mk.inj done).1,(Prod.mk.inj done).2⟩

theorem pageBatch_received {hash : String} {number pages count : Nat}
    {existing : Option GenerationPage} (done : pageBatch delivery minted hash number pages count items checkpoint generation existing t = some u) :
    Known u delivery ∧ u.staging = t.staging := by
  obtain ⟨_,ensured,_⟩ := ensureCheckpoint_same t
  unfold pageBatch at done
  rw [ensured] at done
  obtain ⟨v,inserted,rest⟩ := bind_eq_some_iff.mp done
  obtain ⟨_,_,rfl⟩ := insertReceipt_some inserted
  split at rest
  · cases rest
    exact received_aside rfl
  obtain ⟨v,generated,rest⟩ := bind_eq_some_iff.mp rest
  obtain ⟨w,paged,rest⟩ := bind_eq_some_iff.mp rest
  obtain ⟨x,itemed,rfl⟩ := map_eq_some_iff.mp rest
  obtain ⟨_,page⟩ := Option.ite_none_right_eq_some.mp paged
  cases page
  have before : v.aside = ({ t with receipts := t.receipts++[delivery.receipt .completed] } : Tables).aside := by
    split at generated
    · cases generated
      rfl
    obtain ⟨_,rfl⟩ := insertGeneration_some generated
    rfl
  exact received_aside ((folded_same Tables.aside (insertItem_aside _) itemed).trans before)

theorem activateBatch_received {pages count : Nat}
    (done : activateBatch delivery pages count generation checkpoint t = some u) : Known u delivery ∧ u.staging = t.staging := by
  obtain ⟨v,inserted,rest⟩ := bind_eq_some_iff.mp done
  obtain ⟨_,_,rfl⟩ := insertReceipt_some inserted
  obtain ⟨w,mirrored,rfl⟩ := map_eq_some_iff.mp rest
  have same := mirror_aside mirrored
  exact received_aside same

theorem eventBatch_received (done : eventBatch delivery event active checkpoint t = some u) : Known u delivery ∧ u.staging = t.staging := by
  obtain ⟨v,inserted,rest⟩ := bind_eq_some_iff.mp done
  obtain ⟨_,_,rfl⟩ := insertReceipt_some inserted
  obtain ⟨w,upserted,rfl⟩ := map_eq_some_iff.mp rest
  have same := folded_same Tables.aside upsertRow_aside upserted
  exact received_aside same

theorem obeys_receiving {next} (accepted : ∀ t, Known t delivery → Holds t (.deliver delivery minted) next)
    (kept : ∀ t u, Valid t → batch t = some u → Kept t u) (received : ∀ t u, batch t = some u → Known u delivery ∧ u.staging = t.staging) (s : Tables) :
    Obeys (terms name (.deliver delivery minted))
      (attempt batch (raced delivery "catalog-projection-conflict") (raced delivery "catalog-internal-error") (.done next)) s :=
  obeys_attempt (fun t u _ valid done => ⟨kept t u valid done,(received t u done).2⟩) (raced_obeys _) (raced_obeys _)
    fun t u w _ _ done further => accepted w ((received t u done).1.later further)

theorem stagePage_obeys (hash : String) (number pages count : Nat) (items : List Item) (s : Tables) :
    Obeys (terms name (.deliver delivery minted)) (stageSnapshotPage delivery minted hash number pages count items) s := by
  refine looked fun t _ _ => ?_
  dsimp only
  split
  · exact raced_obeys _ _
  refine looked fun t _ _ => ?_
  split
  · exact raced_obeys _ _
  rename_i agrees
  have staging : ∀ g, t.generationNamed delivery.sourceGeneration = some g → g.status = .staging := fun g read => by
    rw [read,Option.any_some,Bool.or_eq_true,decide_eq_true_eq,not_or,not_not] at agrees
    exact agrees.2
  have writes : ∀ (checkpoint : Checkpoint) (existing : Option GenerationPage) (s : Tables), Obeys (terms name (.deliver delivery minted))
      (if existing.any fun page => page.payloadHash ≠ .body delivery.payloadHash then raced delivery "catalog-page-conflict" else
        attempt (pageBatch delivery minted hash number pages count items checkpoint (t.generationNamed delivery.sourceGeneration) existing)
          (raced delivery "catalog-projection-conflict") (raced delivery "catalog-internal-error")
          (.done (if existing.isSome then .ignored else .completed))) s := fun checkpoint existing s => by
    split
    · exact raced_obeys _ _
    refine obeys_receiving (fun x known => ?_) (fun v w valid done => pageBatch_kept valid staging done) (fun v w done => pageBatch_received done) s
    split
    · exact known
    exact known
  split
  · exact looked fun v _ _ => writes _ _ v
  exact writes _ none t

theorem activateSnapshot_obeys (hash : String) (pages count : Nat) (s : Tables) :
    Obeys (terms name (.deliver delivery minted)) (activateSnapshot delivery hash pages count) s := by
  refine looked fun t _ _ => ?_
  split
  · exact raced_obeys _ _
  rename_i generation read
  split
  · exact raced_obeys _ _
  rename_i agrees
  have number : generation.sourceSequence = delivery.sourceSequence := by
    simp only [Bool.or_eq_true,decide_eq_true_eq,not_or,not_not] at agrees
    exact agrees.1.1.1
  refine looked fun t _ _ => ?_
  split
  · exact raced_obeys _ _
  rename_i checkpoint present
  split
  · refine obeys_receiving (fun x known => ?_) (fun v w valid done => replayBatch_kept valid done) (fun v w done => ?_) t
    · exact known
    · obtain ⟨_,_,rfl⟩ := insertReceipt_some done
      exact received_aside rfl
  split
  · exact raced_obeys _ _
  rename_i ahead
  rw [Bool.or_eq_true,decide_eq_true_eq,decide_eq_true_eq,not_or,not_not,Nat.not_le] at ahead
  refine looked fun t _ _ => ?_
  split
  · exact raced_obeys _ _
  refine looked fun t _ _ => ?_
  split
  · exact raced_obeys _ _
  refine looked fun t _ _ => ?_
  split
  · exact raced_obeys _ _
  refine obeys_receiving (fun x known => ?_) (fun v w valid done => activateBatch_kept valid ahead.2 number ahead.1 done)
    (fun v w done => activateBatch_received done) t
  exact known

theorem applyEvent_obeys (event : CatalogEvent) (s : Tables) : Obeys (terms name (.deliver delivery minted)) (applyEvent delivery event) s := by
  refine looked fun t _ _ => ?_
  split
  · exact raced_obeys _ _
  rename_i checkpoint present
  split
  · exact raced_obeys _ _
  rename_i active pointed
  split
  · exact raced_obeys _ _
  split
  · exact raced_obeys _ _
  rename_i follows
  refine looked fun t _ _ => ?_
  split
  · exact raced_obeys _ _
  refine obeys_receiving (fun x known => ?_) (fun v w valid done => eventBatch_kept valid pointed (not_not.mp follows) done)
    (fun v w done => eventBatch_received done) t
  exact known

theorem applyDelivery_obeys (name : Nat) (delivery : Delivery) (minted : String) (s : Tables) :
    Obeys (terms name (.deliver delivery minted)) (applyCatalogProjectionDelivery delivery minted) s := by
  refine obeys_reading (fun _ => trivial) fun t _ _ => ?_
  split
  · rename_i receipt found
    split
    · exact found_known t delivery found ‹_›
    trivial
  split
  · exact stagePage_obeys _ _ _ _ _ t
  · exact activateSnapshot_obeys _ _ _ t
  exact applyEvent_obeys _ t
end

section
variable {name : Nat}

theorem promoteBatch_staging (done : promoteBatch authority checked checkpoint t = some u) : u.staging = t.staging := by
  unfold promoteBatch at done
  obtain ⟨_,done⟩ := Option.ite_none_left_eq_some.mp done
  obtain ⟨v,inserted,rest⟩ := bind_eq_some_iff.mp done
  obtain ⟨_,rfl⟩ := insertGeneration_some inserted
  obtain ⟨w,paged,rest⟩ := bind_eq_some_iff.mp rest
  obtain ⟨_,rfl⟩ := insertPages_some paged
  obtain ⟨x,itemed,rest⟩ := bind_eq_some_iff.mp rest
  obtain ⟨y,mirrored,rest⟩ := bind_eq_some_iff.mp rest
  obtain ⟨_,is⟩ := Option.ite_none_left_eq_some.mp rest
  cases is
  exact (Prod.mk.inj ((mirror_aside mirrored).trans (folded_same Tables.aside (insertItem_aside _) itemed))).2

theorem unpromoted_obeys (code : String) (s : Tables) : Obeys (terms name (.promote authority)) (unpromoted authority code) s := by
  refine obeys_reading (fun _ => trivial) fun t _ _ => ?_
  split
  · split <;> trivial
  trivial

theorem promote_obeys (name : Nat) (authority : PromotionAuthority) (s : Tables) :
    Obeys (terms name (.promote authority)) (promoteOpsInventoryCatalogSnapshot authority) s := by
  have lost : ∀ t, Obeys (terms name (.promote authority)) (unpromoted authority "temporarily-unavailable") t := unpromoted_obeys _
  refine obeys_reading lost fun t _ _ => ?_
  split
  · trivial
  refine obeys_reading lost fun t _ _ => ?_
  split
  · trivial
  refine obeys_reading lost fun summary _ _ => ?_
  refine obeys_reading lost fun counted counting _ => obeys_reading lost fun matched matching _ => obeys_reading lost fun canon canonical _ => ?_
  split
  · trivial
  refine obeys_reading lost fun ends ending _ => ?_
  split
  · trivial
  refine obeys_reading lost fun pointed pointing _ => ?_
  refine obeys_reading lost fun sought seeking _ => ?_
  split
  · split <;> trivial
  split
  · trivial
  refine obeys_reading lost fun checked checking _ => ?_
  split
  · trivial
  have since : Later pointed checked := seeking.trans checking
  have all : Later summary checked := ((((counting.trans matching).trans canonical).trans ending).trans pointing).trans since
  refine obeys_attempt (fun v w later valid done =>
      ⟨(promoteBatch_kept valid ((all.trans later).pages.filter _) (since.trans later).checkpoint done).1,promoteBatch_staging done⟩) (unpromoted_obeys _) lost fun v w x later valid done further => ?_
  have holds : Holds w (.promote authority) (.promoted authority.generation (authority.expectedSourceSequence + 1)) :=
    ⟨rfl,rfl,(promoteBatch_kept valid ((all.trans later).pages.filter _) (since.trans later).checkpoint done).2⟩
  exact holds.later further
end

section
variable {t : Tables} {name : Nat} {page : InventoryPage}

theorem stagedPage_mem (found : t.stagedPage page = some page) : page ∈ t.stagedPages := mem_of_find?_eq_some found

theorem answered_obeys (s : Tables) : Obeys (terms name (.stage page)) (answered page) s := by
  refine obeys_reading (fun _ => trivial) fun t _ _ => ?_
  split
  · trivial
  refine obeys_reading (fun _ => trivial) fun t _ _ => ?_
  split
  · exact ⟨rfl,stagedPage_mem ‹_›⟩
  trivial

theorem stage_obeys (name : Nat) (page : InventoryPage) (distinct : Keyed Item.publicId page.items) (s : Tables) :
    Obeys (terms name (.stage page)) (stageOpsInventoryCatalogPage page) s := by
  refine obeys_reading (fun _ => trivial) fun t _ _ => ?_
  split
  · trivial
  refine obeys_reading (fun _ => trivial) fun t _ _ => ?_
  split
  · rename_i existing found
    split
    · rename_i same
      exact ⟨rfl,stagedPage_mem (same ▸ found)⟩
    trivial
  refine obeys_reading (fun _ => trivial) fun t _ _ => ?_
  split
  · trivial
  refine obeys_reading (fun _ => trivial) fun t _ _ => ?_
  split
  · trivial
  refine obeys_reading (fun _ => trivial) fun t _ _ => ?_
  split
  · trivial
  intro t _ valid
  refine ⟨?_,trivial⟩
  cases done : stageBatch page t with
  | none =>
    simp only [done,getD_none,isSome_none,Bool.false_eq_true,if_false]
    exact ⟨⟨kept_still valid,.inl rfl⟩,answered_obeys t⟩
  | some u =>
    simp only [done,getD_some,isSome_some,if_true]
    obtain ⟨kept,stored⟩ := stageBatch_kept valid distinct done
    refine ⟨⟨kept,.inr done⟩,obeys_reading (fun _ => trivial) fun v later _ => ?_⟩
    split
    · exact ⟨rfl,later.pages.subset (stored ‹_›)⟩
    trivial
end

variable {s t : Tables} {events : List (Event Nat Request)} {after : World}

theorem registries_kept (valid : Valid s) (registries : List Registry) : Valid { s with registries } ∧ Later s { s with registries } := by
  have later : Later s { s with registries } :=
    ⟨Nat.le_refl _,id,id,prefix_rfl,fun row mem => ⟨row,mem,rfl⟩,fun g mem other => ⟨g,mem,rfl,rfl,other,rfl⟩,prefix_rfl,prefix_rfl⟩
  exact ⟨⟨valid.mirrored.congr rfl rfl rfl rfl rfl rfl rfl rfl,⟨valid.taken.receipts,valid.taken.once,valid.taken.known⟩,valid.staged.congr rfl rfl,
    fun p mem => (valid.promotions p mem).later later⟩,later⟩

theorem discipline : Discipline setting Valid terms where
  same _ _ s := Later.refl s
  trans _ _ _ _ _ first second := first.trans second
  stable _ _ _ _ _ post relied := Holds.later post relied
  inside _ _ _ valid _ := valid
  entered name request s _ entered := by
    cases request with
    | deliver delivery minted => exact applyDelivery_obeys name delivery minted s
    | promote authority => exact promote_obeys name authority s
    | stage page => exact stage_obeys name page entered s
  outside s t valid moved := by
    obtain ⟨registries,rfl⟩ := moved
    obtain ⟨holds,later⟩ := registries_kept valid registries
    exact ⟨holds,fun _ _ => later⟩
  kept _ _ _ _ _ _ _ kept := ⟨kept.1.valid,fun _ _ _ => kept.1.later⟩

theorem empty_valid : Valid .empty where
  mirrored := ⟨⟨nodup_nil,nodup_nil,nofun,nofun,fun _ _ => ⟨nofun,fun ⟨_,empty,_⟩ => nomatch empty⟩⟩,nodup_nil,nofun,nofun,nofun,nofun,
    fun _ => rfl,fun _ => ⟨nofun,nofun⟩,nodup_nil,fun _ _ => ⟨fun ⟨_,empty,_⟩ => (nomatch empty),fun ⟨_,empty,_⟩ => (nomatch empty)⟩⟩
  taken := ⟨nodup_nil,nodup_nil,nofun⟩
  staged := ⟨nodup_nil,nodup_nil,nofun,nofun,nofun⟩
  promotions := nofun

theorem reached (path : Runs (Step setting) (System.initial .empty) events after) : Orderly Valid terms after :=
  discipline.reached empty_valid path

theorem step_kept (orderly : Orderly Valid terms before) (taken : Step setting before event after) : Kept before.store after.store := by
  rcases discipline.effect orderly taken with same | ⟨_,registries,is⟩ | ⟨_,_,_,_,_,_,kept⟩
  · rw [same]
    exact kept_still orderly.valid
  · obtain ⟨holds,later⟩ := registries_kept orderly.valid registries
    rw [is]
    exact ⟨holds,later,.still rfl rfl⟩
  exact kept.1
end LedgeTopOps.CatalogMirror
