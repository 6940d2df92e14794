import LedgeTopOps.ProjectOverlay
import LedgeTopOps.UpsertedRows

namespace LedgeTopOps.ProjectOverlay
open List KeyedRows UpsertedRows

def Assignment.contact (row : Assignment) : String × Role := (row.contactId,row.role)
def Copy.selected (r : Copy) : List Assignment := r.sourceContacts.filter fun row => row.role ∈ r.selectedContactRoles

open Assignment (contact comparable)

def Copy.outcome (blank : String → Bool) (r : Copy) (item : Assignment) : Option Assignment → Assignment
  | none => { item with id := .copied item.contactId item.role }
  | some current =>
    if current.comparable = item.comparable || !r.replaceSource || current.comparable = (item.merged current blank).comparable then current
    else item.merged current blank

def Copy.left (blank : String → Bool) (r : Copy) (items destination : List Assignment) (k : String × Role) : Option Assignment :=
  ((find contact items k).map fun item => r.outcome blank item (find contact destination k)).or (find contact destination k)

def Copy.united (runtime : Runtime) (r : Copy) (destination : List Assignment) : List Assignment := r.selected.foldl (r.merge runtime.blank) destination

structure Stored (rows : List Assignment) : Prop where
  contacts : Keyed contact rows
  ids : Keyed Assignment.id rows
  own : ∀ row ∈ rows, ∀ k : String × Role, row.id = .copied k.1 k.2 → row.contact = k

section
variable {runtime : Runtime} {blank : String → Bool} {r : Copy} {rows items destination : List Assignment} {item row old : Assignment}

theorem find_contact : (rows.find? fun row => row.contactId = item.contactId && row.role = item.role) = find contact rows item.contact := by
  congr 1
  funext row
  simp [contact]

theorem merge_find (blank : String → Bool) (r : Copy) (item : Assignment) (keyed : Keyed contact rows) :
    Keyed contact (r.merge blank rows item) ∧ ∀ k, find contact (r.merge blank rows item) k =
    if item.contact = k then some (r.outcome blank item (find contact rows k)) else find contact rows k := by
  unfold Copy.merge
  rw [find_contact]
  cases found : find contact rows item.contact with
  | none =>
    refine ⟨keyed.add (find_none.mp found),fun k => ?_⟩
    rw [find_snoc]
    by_cases own : item.contact = k
    · rw [←own,found,if_pos rfl]
      exact if_pos rfl
    rw [if_neg own]
    exact (congrArg _ (if_neg own)).trans Option.or_none
  | some current =>
    have named := (find_some found).2
    dsimp only
    split
    · rename_i met
      refine ⟨keyed,fun k => ?_⟩
      split
      · rename_i own
        rw [←own,found,Copy.outcome,if_pos met]
      rfl
    rename_i unmet
    have is : (rows.map fun row => if row.contactId = item.contactId && row.role = item.role then item.merged current blank else row) =
        amend contact rows item.contact fun row => if row.contact = item.contact then item.merged current blank else row := by
      refine map_congr_left fun row _ => ?_
      by_cases own : row.contact = item.contact
      · rw [if_pos own]
        exact (if_pos (by simpa [contact] using own)).trans (if_pos own).symm
      rw [if_neg own]
      exact if_neg (by simpa [contact] using own)
    have same : ∀ row, contact (if row.contact = item.contact then item.merged current blank else row) = row.contact := fun row => by
      split
      · rename_i own
        exact own.symm
      rfl
    rw [is]
    refine ⟨keyed.amend _ fun row _ _ => same row,fun k => ?_⟩
    rw [find_amend same]
    split
    · rename_i own
      rw [←own,found,Option.map_some,if_pos named,if_pos named,Copy.outcome,if_neg unmet]
    rename_i apart
    cases there : find contact rows k with
    | none => rfl
    | some => rw [Option.map_some,if_neg fun is => apart (is.symm.trans (find_some there).2)]

theorem merges_find (distinct : Keyed contact items) (keyed : Keyed contact destination) : Keyed contact (items.foldl (r.merge blank) destination) ∧
    ∀ k, find contact (items.foldl (r.merge blank) destination) k = r.left blank items destination k := by
  refine foldl_rec (fun done rows => Keyed contact rows ∧ ∀ k, find contact rows k = r.left blank done destination k) ⟨keyed,fun _ => rfl⟩
    fun done x rest rows split ⟨before,found⟩ => ?_
  obtain ⟨after,next⟩ := merge_find blank r x before
  refine ⟨after,fun k => ?_⟩
  rw [next,found]
  unfold Copy.left
  rw [find_snoc]
  by_cases own : x.contact = k
  · have absent : find contact done k = none := find_none.mpr fun other mem is => done_apart distinct split other mem (is.trans own.symm)
    rw [absent,if_pos own,if_pos own]
    rfl
  rw [if_neg own,if_neg own,Option.or_none]

theorem outcome_id : (r.outcome blank item held).id = (held.map Assignment.id).getD (.copied item.contact.1 item.contact.2) := by
  cases held with
  | none => rfl
  | some =>
    rw [Copy.outcome]
    split <;> rfl

-- Merging the same contact into what it left changes nothing.
theorem outcome_settled (is : row.comparable = (r.outcome blank item held).comparable) :
    row.comparable = item.comparable || !r.replaceSource || row.comparable = (item.merged row blank).comparable := by
  cases held with
  | none =>
    have same : row.comparable = item.comparable := is
    rw [decide_eq_true same]
    rfl
  | some current =>
    rw [Copy.outcome] at is
    split at is
    · rename_i met
      have same : (item.merged row blank).comparable = (item.merged current blank).comparable := by
        simp only [comparable,Prod.mk.injEq] at is
        simp only [comparable,Assignment.merged,is]
      rw [same,is]
      exact met
    have again : row.comparable = (item.merged row blank).comparable := by
      simp only [comparable,Assignment.merged,Prod.mk.injEq] at is ⊢
      refine ⟨is.1,is.2.1,?_,?_⟩
      · rw [is.2.2.1]
        cases item.preferredContactMethod <;> rfl
      rw [is.2.2.2]
      split <;> rfl
    rw [decide_eq_true again,Bool.or_true]

theorem map_mapIdx {ρ α : Type} {f : Nat → ρ → ρ} {reading : ρ → α} (same : ∀ place row, reading (f place row) = reading row) (rows : List ρ) :
    (rows.mapIdx f).map reading = rows.map reading := by
  refine ext_getElem (by simp) fun place _ _ => ?_
  simp [same]

theorem comparable_contact (is : row.comparable = old.comparable) : row.contact = old.contact := by
  simp only [comparable,Prod.mk.injEq] at is
  unfold contact
  rw [is.1,is.2.1]

theorem plan_reads {α : Type} (reading : Assignment → α) (same : ∀ place row, reading { row with sortOrder := place,under := r.root } = reading row) :
    ((r.contacts runtime destination).map reading).Perm ((r.united runtime destination).map reading) := by
  have is : (r.contacts runtime destination).map reading = _ := map_mapIdx same _
  rw [is]
  exact (mergeSort_perm _ _).map _

theorem plan_row (mem : row ∈ r.united runtime destination) :
    ∃ planned ∈ r.contacts runtime destination, planned.id = row.id ∧ planned.comparable = row.comparable := by
  have there : (row.id,row.comparable) ∈ (r.contacts runtime destination).map fun row => (row.id,row.comparable) :=
    (plan_reads (fun row => (row.id,row.comparable)) fun _ _ => rfl).mem_iff.mpr (mem_map_of_mem mem)
  obtain ⟨planned,here,is⟩ := mem_map.mp there
  exact ⟨planned,here,congrArg Prod.fst is,congrArg Prod.snd is⟩

theorem plan_orders : (r.contacts runtime destination).map Assignment.sortOrder = range (r.contacts runtime destination).length := by
  refine ext_getElem (by simp) fun place _ _ => ?_
  simp [Copy.contacts]

theorem memory_again (snapshot : Snapshot) : r.memory (r.memory snapshot) = r.memory snapshot := by
  funext part
  unfold Copy.memory
  by_cases met : part ∈ r.selectedMemorySections ∧ r.sourceMemory part ≠ "" ∧ (snapshot part = "" ∨ r.replaceSource)
  · simp only [if_pos met]
    split <;> rfl
  simp only [if_neg met]

section
variable (runtime) (distinct : Keyed contact r.sourceContacts) (stored : Stored destination)
include distinct stored

theorem united_find : Keyed contact (r.united runtime destination) ∧
    ∀ k, find contact (r.united runtime destination) k = r.left runtime.blank r.selected destination k :=
  merges_find (Nodup.sublist (filter_sublist.map _) distinct) stored.contacts

theorem united_id (mem : row ∈ r.united runtime destination) :
    row.id = ((find contact destination row.contact).map Assignment.id).getD (.copied row.contact.1 row.contact.2) := by
  obtain ⟨keyed,found⟩ := united_find runtime distinct stored
  have here := (found row.contact).symm.trans (keyed.find mem)
  unfold Copy.left at here
  cases chosen : find contact r.selected row.contact with
  | none =>
    rw [chosen,Option.map_none,Option.none_or] at here
    rw [here]
    rfl
  | some =>
    rw [chosen] at here
    have is := congrArg Assignment.id (Option.some.inj here)
    rw [outcome_id,(find_some chosen).2] at is
    exact is.symm

theorem united_ids : Keyed Assignment.id (r.united runtime destination) := by
  have keyed := (united_find runtime distinct stored).1
  refine Nodup.map_on (fun a one b two same => keyed.unique one two ?_) (Nodup.of_map _ keyed)
  rw [united_id runtime distinct stored one,united_id runtime distinct stored two] at same
  cases left : find contact destination a.contact with
  | none =>
    cases right : find contact destination b.contact with
    | none =>
      rw [left,right] at same
      cases RowId.copied.inj same with
      | intro first second => exact Prod.ext first second
    | some y =>
      rw [left,right] at same
      obtain ⟨mem,named⟩ := find_some right
      exact (stored.own y mem _ same.symm).symm.trans named
  | some x =>
    obtain ⟨mem,named⟩ := find_some left
    cases right : find contact destination b.contact with
    | none =>
      rw [left,right] at same
      exact named.symm.trans (stored.own x mem _ same)
    | some =>
      rw [left,right] at same
      obtain ⟨there,called⟩ := find_some right
      rw [←named,stored.ids.unique mem there same,called]

theorem plan_old (mem : old ∈ destination) : ∃ row ∈ r.contacts runtime destination, row.id = old.id ∧ (row.comparable = old.comparable ∨
    r.replaceSource ∧ ∃ item ∈ r.selected, item.contact = old.contact ∧ row.comparable = (item.merged old runtime.blank).comparable) := by
  have here := (united_find runtime distinct stored).2 old.contact
  unfold Copy.left at here
  rw [stored.contacts.find mem] at here
  cases chosen : find contact r.selected old.contact with
  | none =>
    rw [chosen] at here
    obtain ⟨row,planned,same,is⟩ := plan_row (find_some here).1
    exact ⟨row,planned,same,.inl is⟩
  | some item =>
    rw [chosen] at here
    have left : find contact (r.united runtime destination) old.contact = some (r.outcome runtime.blank item (some old)) := here
    obtain ⟨row,planned,same,is⟩ := plan_row (find_some left).1
    obtain ⟨among,named⟩ := find_some chosen
    refine ⟨row,planned,same.trans outcome_id,?_⟩
    rw [Copy.outcome] at is
    split at is
    · exact .inl is
    rename_i unmet
    refine .inr ⟨?_,item,among,named,is⟩
    by_contra keeps
    simp [keeps] at unmet

theorem plan_settled : r.contactsChanged runtime (r.contacts runtime destination) = false := by
  obtain ⟨keyed,found⟩ := united_find runtime distinct stored
  have planned : Keyed contact (r.contacts runtime destination) := (plan_reads contact fun _ _ => rfl).nodup_iff.mpr keyed
  have still : ∀ item ∈ r.selected, r.merge runtime.blank (r.contacts runtime destination) item = r.contacts runtime destination := fun item mem => by
    have here := found item.contact
    have selected : Keyed contact r.selected := Nodup.sublist (filter_sublist.map _) distinct
    unfold Copy.left at here
    rw [selected.find mem] at here
    obtain ⟨_,there,_,is⟩ := plan_row (find_some here).1
    have at_ := planned.find there
    rw [comparable_contact is,(find_some here).2] at at_
    unfold Copy.merge
    rw [find_contact,at_]
    exact if_pos (outcome_settled is)
  have whole : r.selected.foldl (r.merge runtime.blank) (r.contacts runtime destination) = r.contacts runtime destination :=
    foldl_rec (fun _ s => s = r.contacts runtime destination) rfl fun done x rest s split is => by
      rw [is]
      exact still x (split ▸ mem_append_right _ (.head _))
  have sorted : (r.contacts runtime destination).Pairwise fun a b =>
      (a.sortOrder < b.sortOrder || (a.sortOrder = b.sortOrder && runtime.before a.id b.id)) = true :=
    pairwise_iff_getElem.mpr fun i j _ _ less => by simp [Copy.contacts,less]
  have same : (r.contacts runtime (r.contacts runtime destination)).map comparable = (r.contacts runtime destination).map comparable := by
    rw [Copy.selected] at whole
    rw [Copy.contacts,whole,mergeSort_of_pairwise sorted]
    refine map_mapIdx ?_ _
    exact fun _ _ => rfl
  exact decide_eq_false (not_not.mpr same)
end

structure Forwarded (runtime : Runtime) (r : Copy) (destination : List Assignment) (snapshot : Snapshot) (plan : List Assignment) : Prop where
  once : Keyed contact plan
  whole : ∀ k, k ∈ plan.map contact ↔ k ∈ destination.map contact ∨ k ∈ r.selected.map contact
  ids : Keyed Assignment.id plan
  orders : plan.map Assignment.sortOrder = range plan.length
  kept : r.replaceSource = false → (∀ old ∈ destination, ∃ row ∈ plan, row.id = old.id ∧ row.comparable = old.comparable) ∧
    ∀ part, snapshot part ≠ "" → r.memory snapshot part = snapshot part
  replaced : ∀ old ∈ destination, ∃ row ∈ plan, row.id = old.id ∧ row.contact = old.contact ∧
    (row.preferredContactMethod = old.preferredContactMethod ∨ old.preferredContactMethod = none ∨
      ∃ item ∈ r.selected, item.contact = old.contact ∧ row.preferredContactMethod = item.preferredContactMethod ∧ item.preferredContactMethod ≠ none) ∧
    (row.instructions = old.instructions ∨
      ∃ item ∈ r.selected, item.contact = old.contact ∧ row.instructions = item.instructions ∧ runtime.blank item.instructions = false)
  sections : ∀ part, r.memory snapshot part = snapshot part ∨
    part ∈ r.selectedMemorySections ∧ r.memory snapshot part = r.sourceMemory part ∧ r.sourceMemory part ≠ ""
  unselected : ∀ old ∈ destination, old.role ∉ r.selectedContactRoles → ∃ row ∈ plan, row.id = old.id ∧ row.comparable = old.comparable
  stable : r.contactsChanged runtime plan = false ∧ r.memoryChanged (r.memory snapshot) = false

theorem copy_forward (distinct : Keyed contact r.sourceContacts) (stored : Stored destination) (snapshot : Snapshot) :
    Forwarded runtime r destination snapshot (r.contacts runtime destination) where
  once := (plan_reads contact fun _ _ => rfl).nodup_iff.mpr (united_find _ distinct stored).1
  whole k := by
    rw [(plan_reads contact fun _ _ => rfl).mem_iff,key_held,key_held,key_held,(united_find _ distinct stored).2]
    unfold Copy.left
    cases find contact r.selected k <;> cases find contact destination k <;> simp
  ids := (plan_reads Assignment.id fun _ _ => rfl).nodup_iff.mpr (united_ids _ distinct stored)
  orders := plan_orders
  kept keeps := by
    refine ⟨fun old mem => ?_,fun part filled => ?_⟩
    · obtain ⟨row,there,same,is | ⟨replaces,_⟩⟩ := plan_old runtime distinct stored mem
      · exact ⟨row,there,same,is⟩
      · cases keeps.symm.trans replaces
    exact if_neg fun met => met.2.2.elim filled fun replaces => by cases keeps.symm.trans replaces
  replaced old mem := by
    obtain ⟨row,there,same,is | ⟨_,item,among,named,is⟩⟩ := plan_old runtime distinct stored mem
    · have own := comparable_contact is
      simp only [comparable,Prod.mk.injEq] at is
      exact ⟨row,there,same,own,.inl is.2.2.1,.inl is.2.2.2⟩
    have own := (comparable_contact is).trans named
    simp only [comparable,Assignment.merged,Prod.mk.injEq] at is
    refine ⟨row,there,same,own,?_,?_⟩
    · cases given : item.preferredContactMethod with
      | none =>
        rw [given] at is
        exact .inl is.2.2.1
      | some =>
        rw [given] at is
        exact .inr (.inr ⟨item,among,named,is.2.2.1.trans given.symm,by rw [given]; nofun⟩)
    cases empty : runtime.blank item.instructions with
    | false =>
      rw [empty] at is
      exact .inr ⟨item,among,named,is.2.2.2,empty⟩
    | true =>
      rw [empty] at is
      exact .inl is.2.2.2
  sections part := by
    unfold Copy.memory
    split
    · rename_i met
      exact .inr ⟨met.1,rfl,met.2.1⟩
    exact .inl rfl
  unselected old mem unselected := by
    obtain ⟨row,there,same,is | ⟨_,item,among,named,_⟩⟩ := plan_old runtime distinct stored mem
    · exact ⟨row,there,same,is⟩
    have role : item.role = old.role := congrArg Prod.snd named
    exact absurd (role ▸ of_decide_eq_true (mem_filter.mp among).2) unselected
  stable := by
    refine ⟨plan_settled _ distinct stored,any_eq_false.mpr fun part _ changed => ?_⟩
    exact of_decide_eq_true changed (congrFun (memory_again snapshot) part)
end

-- The contact is kept in its place and one is added; the source's plan is a blank text.
def trimming : Runtime := ⟨fun _ _ => false,fun text => text.toList.all Char.isWhitespace⟩

def standing : List Assignment := [⟨.uuid ⟨"staff","first"⟩ 0,"contact",.projectContact,some .email,"Call first",0,⟨.client,"root"⟩⟩]

def recurring : Copy :=
  ⟨⟨.client,"root"⟩,⟨"staff","second"⟩,1,1,[.projectContact],[.plan],true,
    [⟨.uuid ⟨"staff","third"⟩ 0,"contact",.projectContact,none,"Knock",0,⟨.client,"root"⟩⟩,
      ⟨.uuid ⟨"staff","third"⟩ 1,"second",.projectContact,none,"",1,⟨.client,"root"⟩⟩],
    fun _ => " ",true⟩

theorem standing_stored : Stored standing := by
  refine ⟨nodup_singleton _,nodup_singleton _,fun row mem k is => ?_⟩
  cases mem_singleton.mp mem
  cases is

theorem recurring_distinct : Keyed contact recurring.sourceContacts := by
  unfold Keyed
  decide +kernel

theorem copy_forward_blanks : Keyed contact recurring.sourceContacts ∧ Stored standing ∧ recurring.replaceSource = true ∧
    recurring.memory (fun _ => "Two flights") .plan ≠ "Two flights" ∧ trimming.blank (recurring.memory (fun _ => "Two flights") .plan) = true := by
  refine ⟨recurring_distinct,standing_stored,rfl,?_,?_⟩
  · decide +kernel
  decide +kernel

theorem copy_forward_example : Forwarded trimming recurring standing (fun _ => "Two flights") (recurring.contacts trimming standing) :=
  copy_forward recurring_distinct standing_stored _
end LedgeTopOps.ProjectOverlay
