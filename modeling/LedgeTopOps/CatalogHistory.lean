import LedgeTopOps.CatalogRuns

namespace LedgeTopOps.CatalogMirror
open List UpsertedRows AtomicPrograms StepRuns

structure Ordered (t : Tables) : Prop where
  once : t.taken.Nodup
  known : ∀ id ∈ t.taken, ∃ receipt ∈ t.receipts, receipt.deliveryId = id
  oneHash : ∀ one ∈ t.receipts, ∀ other ∈ t.receipts, one.deliveryId = other.deliveryId → one = other
  generation : (∃ g ∈ t.generations, g.status ≠ .staging) →
    ∃ g ∈ t.generations, g.status = .active ∧ t.activeGeneration = some g.id ∧ (∀ other ∈ t.generations, other.status = .active → other = g) ∧
      t.events.map Prod.fst = range' (g.sourceSequence + 1) t.events.length ∧ t.sequence = g.sourceSequence + t.events.length
  contents : ∀ g ∈ t.generations, ∀ item, item ∈ t.itemsOf g.id ↔ ∃ page ∈ t.accepted, page.generation = g.id ∧ item ∈ page.items
  current : ∀ item, (∃ row ∈ t.rows, row.active = true ∧ row.item = item) ↔ item ∈ t.current
  oneVersion : ∀ one ∈ t.rows, ∀ other ∈ t.rows, one.active = true → other.active = true → one.item.publicId = other.item.publicId → one = other
  agree : ∀ publicId version, (∃ state ∈ t.entities, state.active = true ∧ state.publicId = publicId ∧ state.sourceVersion = version) ↔
    ∃ row ∈ t.rows, row.active = true ∧ row.item.publicId = publicId ∧ row.item.sourceVersion = version
  oneState : ∀ one ∈ t.entities, ∀ other ∈ t.entities, one.publicId = other.publicId → one = other
  oneContent : ∀ one ∈ t.rows, ∀ other ∈ t.rows, one.item.key = other.item.key → one = other

structure Advances (s t : Tables) : Prop where
  sequence : s.sequence ≤ t.sequence
  event : ∀ e, t.events = s.events++[e] → t.sequence = s.sequence + 1
  promotion : ∀ p, t.promotions = s.promotions++[p] → t.sequence = s.sequence + 1
  receipts : ∀ receipt ∈ s.receipts, receipt ∈ t.receipts
  activated : ∀ g ∈ s.generations, g.status ≠ .staging → t.itemsOf g.id = s.itemsOf g.id
  content : ∀ row ∈ s.rows, ∃ kept ∈ t.rows, kept.item = row.item

def accepting : Answer → Bool
  | .completed | .ignored | .duplicate => true
  | _ => false

section
variable {t : Tables} {history : List (Transition World (Event Nat Request))} {after : World}

theorem active_row : (∃ row ∈ t.rows, row.active ∧ row.item = item) ↔ ⟨item,true⟩ ∈ t.rows := by
  constructor
  · rintro ⟨⟨_,_⟩,mem,rfl,rfl⟩
    exact mem
  exact fun mem => ⟨_,mem,rfl,rfl⟩

theorem Valid.ordered (valid : Valid t) : Ordered t := by
  have mirrored := valid.mirrored
  have current : ∀ item, (∃ row ∈ t.rows, row.active ∧ row.item = item) ↔ item ∈ t.current := fun item =>
    active_row.trans (mirrored.current item)
  refine ⟨valid.taken.once,valid.taken.known,fun one first other second same => inj_on_of_nodup_map valid.taken.receipts first second same,?_,
    fun g _ => mirrored.accepted g.id,current,?_,fun publicId version => ?_,fun one first other second same =>
      inj_on_of_nodup_map mirrored.entities first second same,fun one first other second same => inj_on_of_nodup_map mirrored.rows first second same⟩
  · rintro ⟨g,mem,status⟩
    obtain ⟨id,is⟩ := Option.isSome_iff_exists.mp (mirrored.activated g mem status)
    obtain ⟨named,there,rfl,active,numbers,sequence⟩ := mirrored.named id is
    refine ⟨named,there,active,is,fun other listed also => ?_,numbers,sequence⟩
    have same : other.id = named.id := Option.some.inj ((mirrored.active other listed also).symm.trans is)
    exact inj_on_of_nodup_map mirrored.generations listed there same
  · intro one first other second live also same
    have mine := (current one.item).mp ⟨one,first,live,rfl⟩
    have its := (current other.item).mp ⟨other,second,also,rfl⟩
    have item : one.item = other.item := inj_on_of_nodup_map (current_keyed mirrored) mine its same
    exact inj_on_of_nodup_map mirrored.rows first second (congrArg Item.key item)
  rw [mirrored.agree]
  constructor
  · rintro ⟨item,mem,named,version⟩
    obtain ⟨row,there,active,rfl⟩ := (current item).mpr mem
    exact ⟨row,there,active,named,version⟩
  rintro ⟨row,there,active,named,version⟩
  exact ⟨row.item,(current row.item).mp ⟨row,there,active,rfl⟩,named,version⟩

theorem Kept.advances (kept : Kept s t) : Advances s t where
  sequence := kept.later.sequence
  event := kept.moves.event
  promotion p same := (kept.moves.promotion p same).1
  receipts receipt mem := kept.later.receipts.subset mem
  activated g mem status := by
    obtain ⟨_,_,_,_,_,items⟩ := kept.later.generations g mem status
    exact items
  content := kept.later.rows

theorem accepted_known (orderly : Orderly Valid terms after)
    (given : after.programs name = some (.deliver delivery minted,.done answer)) (accepted : accepting answer) : Known after.store delivery := by
  have holds := orderly.result given
  cases answer with
  | completed | ignored | duplicate => exact holds
  | _ => cases accepted

-- The mirror is one ordered history, whichever way the calls interleave.
theorem ordered_history (path : Runs (Recorded (Step setting)) (System.initial .empty) history after) :
    Ordered after.store ∧ (∀ taken ∈ history, Advances taken.before.store taken.after.store) ∧
      ∀ one other first second minted extra mine its, after.programs one = some (.deliver first minted,.done mine) →
        after.programs other = some (.deliver second extra,.done its) → accepting mine = true → accepting its = true →
        first.deliveryId = second.deliveryId → first.payloadHash = second.payloadHash := by
  have orderly := reached path.events
  refine ⟨orderly.valid.ordered,fun taken member => ?_,fun one other first second minted extra mine its given told accepted also same => ?_⟩
  · obtain ⟨before,rest,split⟩ := append_of_mem member
    obtain ⟨earlier,step⟩ := path.reached split
    exact (step_kept (reached earlier.events) step).advances
  obtain ⟨left,there,mineId,mineHash⟩ := accepted_known orderly given accepted
  obtain ⟨right,here,itsId,itsHash⟩ := accepted_known orderly told also
  have equal := orderly.valid.ordered.oneHash left there right here (mineId.trans (same.trans itsId.symm))
  rw [←mineHash,equal,itsHash]
end

instance (name : Nat) (t : Tables) : (request : Request) → Decidable (setting.enter name request t)
  | .deliver _ _ => .isTrue trivial
  | .promote _ => .isTrue trivial
  | .stage page => inferInstanceAs (Decidable (page.items.map Item.publicId).Nodup)

instance (name : Nat) (request : Request) (t : Tables) : Decidable (setting.may name request t) := .isTrue trivial

def itemNamed (publicId version name : String) : Item := ⟨publicId,version,name,none,"Repairs",0,.none,"[]"⟩
def servicePage : Delivery := ⟨"page","first",1,.snapshotPage "hash" 1 1 2 [itemNamed "roof" "v1" "Roof",itemNamed "fence" "v1" "Fence"],"a"⟩
def serviceActivation : Delivery := ⟨"activate","first",1,.snapshotActivate "hash" 1 2,"b"⟩
def serviceChange : Delivery := ⟨"change","first",2,.event (.upsert (itemNamed "roof" "v2" "New roof")),"c"⟩
def serviceRemoval : Delivery := ⟨"remove","first",2,.event (.tombstone "fence" "v2"),"d"⟩

def racingEvents : List (Event Nat Request) :=
  .start 0 (.deliver servicePage "generation") :: replicate 5 (.call 0)++
    .start 1 (.deliver serviceActivation "unused") :: replicate 8 (.call 1)++
    .start 2 (.deliver serviceChange "unused") :: replicate 3 (.call 2)++
    .start 3 (.deliver serviceRemoval "unused") :: replicate 5 (.call 3)++replicate 2 (.call 2)

def racingFinal : World := racingEvents.foldl (System.play setting id) (System.initial .empty)

theorem ordered_history_example : Ordered racingFinal.store ∧ racingFinal.programs 2 = some (.deliver serviceChange "unused",.done (.rejected "catalog-projection-conflict")) ∧
    racingFinal.store.sequence = 2 ∧ racingFinal.store.current = [itemNamed "roof" "v1" "Roof"] := by
  have replays : (System.initial .empty : World).replays setting racingEvents = true := by decide +kernel
  exact ⟨(ordered_history (System.replayed replays)).1,rfl,by decide +kernel,by decide +kernel⟩

end LedgeTopOps.CatalogMirror
