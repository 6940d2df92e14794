import Mathlib.Data.List.TakeWhile
import LedgeTopOps.InventoryObservations

namespace LedgeTopOps.InventoryObservations
open List TextPatterns StepRuns InventoryReaders
open Bool (or_eq_true and_eq_true)

section
variable {control : Char → Bool}

theorem sqlLength_whole (clean : ∀ c ∈ value, c ≠ '\x00') : sqlLength value = value.length := by
  unfold sqlLength
  rw [takeWhile_eq_self_iff.mpr fun c mem => decide_eq_true (clean c mem)]

theorem lowerHex_lower (hex : lowerHex c) : c ≠ '\x00' ∧ lowerCase c = c := by
  have notUpper : upperLetter c = false := by
    simp only [lowerHex,decimal,or_eq_true,and_eq_true,decide_eq_true_eq,Char.le_def] at hex
    simp only [upperLetter,Bool.and_eq_false_iff,decide_eq_false_iff_not,Char.le_def]
    rcases hex with ⟨_,low⟩ | ⟨high,_⟩
    · exact .inl fun above => absurd (UInt32.le_trans above low) (by decide)
    exact .inr fun below => absurd (UInt32.le_trans high below) (by decide)
  refine ⟨fun zero => ?_,?_⟩
  · rw [zero] at hex
    exact absurd hex (by decide)
  unfold lowerCase
  rw [notUpper]
  rfl

theorem isHex_of_repeated (matched : repeated digits digits lowerHex value) : isHex digits value := by
  obtain ⟨least,most⟩ := repeated_length matched
  simp only [repeated,and_eq_true,all_eq_true] at matched
  simp only [isHex,and_eq_true,decide_eq_true_eq,all_eq_true]
  refine ⟨⟨?_,?_⟩,matched.2⟩
  · rw [sqlLength_whole fun c mem => (lowerHex_lower (matched.2 c mem)).1]
    omega
  exact (map_id'' (fun _ => rfl) value).symm.trans (map_congr_left fun c mem => (lowerHex_lower (matched.2 c mem)).2.symm)

theorem isRevision_of_revision (given : revision value) : isRevision value := by
  unfold revision positive at given
  cases value with
  | nil => cases given
  | cons =>
    simp only [and_eq_true] at given
    obtain ⟨⟨⟨digit,leading⟩,digits⟩,small⟩ := given
    have short := (repeated_length digits).2
    simp only [repeated,and_eq_true] at digits
    simp only [isRevision,isNumber,List.head?_cons,Option.any_some,and_eq_true,all_cons,decide_eq_true_eq]
    exact ⟨leading,⟨⟨digit,digit,digits.2⟩,Nat.succ_le_succ short⟩,small⟩

theorem isExternalId_of_externalId (nul : control '\x00') (given : externalId control value) : isExternalId value := by
  simp only [externalId,and_eq_true,Bool.not_eq_true',decide_eq_true_eq,any_eq_false] at given
  obtain ⟨⟨⟨filled,short⟩,clean⟩,_⟩ := given
  have whole : sqlLength value = value.length := sqlLength_whole fun c mem zero => clean c mem (zero ▸ nul)
  have long : 0 < value.length := length_pos_iff.mpr fun empty => by
    rw [empty] at filled
    cases filled
  simp only [isExternalId,whole,and_eq_true,decide_eq_true_eq]
  omega

theorem resource_check (nul : control '\x00') (given : validResource control item) : (Item.resource item).check := by
  simp only [validResource,and_eq_true] at given
  obtain ⟨⟨⟨⟨⟨ids,number⟩,digest⟩,deleted⟩,upserted⟩,binding⟩ := given
  simp only [Item.check,and_eq_true]
  refine ⟨⟨⟨⟨isHex_of_repeated ids,isRevision_of_revision number⟩,isHex_of_repeated digest⟩,?_⟩,?_⟩
  · revert deleted upserted
    cases item.lastAction <;> cases item.present <;> decide
  cases bound : item.binding with
  | none => rfl
  | some =>
    rw [bound,Option.all_some] at binding
    simp only [validBinding,and_eq_true] at binding
    rw [Option.all_some,and_eq_true]
    exact ⟨isExternalId_of_externalId nul binding.1,isRevision_of_revision binding.2⟩

theorem project_check (nul : control '\x00') (given : validProject control item) : (Item.project item).check := by
  simp only [validProject,and_eq_true] at given
  obtain ⟨⟨⟨external,ids⟩,number⟩,digest⟩ := given
  have counted := isRevision_of_revision number
  simp only [isRevision,and_eq_true] at counted
  simp only [Item.check,and_eq_true,or_eq_true]
  refine ⟨⟨⟨⟨isExternalId_of_externalId nul external,isHex_of_repeated ids⟩,counted.2⟩,.inr ?_⟩,isHex_of_repeated digest⟩
  have leading := counted.1
  revert leading
  cases item.revision.head? with
  | none => exact fun none => rfl
  | some => exact id
end

variable {t v : Tables}

def Tables.Noted (t : Tables) (request : RequestKey) : Prop := ∃ conflict ∈ t.conflicts, conflict.request = request

structure Grown (t v : Tables) : Prop where
  receipts : v.receipts = t.receipts
  observations : v.observations = t.observations
  mappings : v.mappings = t.mappings
  conflicts : t.conflicts <+: v.conflicts

theorem Grown.refl (t : Tables) : Grown t t := ⟨rfl,rfl,rfl,prefix_rfl⟩

theorem Grown.trans (first : Grown t v) (second : Grown v u) : Grown t u :=
  ⟨second.receipts.trans first.receipts,second.observations.trans first.observations,second.mappings.trans first.mappings,
    first.conflicts.trans second.conflicts⟩

theorem Tables.Noted.mono (noted : t.Noted request) (grown : t.conflicts <+: v.conflicts) : v.Noted request := by
  obtain ⟨conflict,mem,same⟩ := noted
  exact ⟨conflict,grown.subset mem,same⟩

theorem record_grown (t : Tables) (conflict : Conflict) : Grown t (t.record conflict) := by
  unfold Tables.record
  split
  · exact Grown.refl t
  exact ⟨rfl,rfl,rfl,prefix_append _ _⟩

theorem record_noted (t : Tables) (conflict : Conflict) : (t.record conflict).Noted conflict.request := by
  unfold Tables.record
  split
  · rename_i known
    obtain ⟨other,mem,same⟩ := any_eq_true.mp known
    exact ⟨other,mem,congrArg Prod.fst (of_decide_eq_true same)⟩
  exact ⟨conflict,mem_append_right _ (mem_singleton_self _),rfl⟩

theorem flag_grown (t : Tables) (prior : Option α) (conflict : α → Conflict) : Grown t (t.flag prior conflict) := by
  unfold Tables.flag
  split
  · exact record_grown _ _
  exact Grown.refl t

theorem foremost_some {rows : List α} {x : α} (mem : x ∈ rows) : ∃ y, foremost better rows = some y := by
  cases rows with
  | nil => cases mem
  | cons => exact ⟨_,rfl⟩

theorem fire_noted (there : prior ∈ t.observations) (identity : prior.identity = row.identity) (type : prior.item.type = row.item.type)
    (fires : trigger.fires prior.item row.item) : (t.fire trigger row).Noted row.request := by
  unfold Tables.fire
  have sought : prior ∈ t.observations.filter fun prior =>
      decide (prior.identity = row.identity) && decide (prior.item.type = row.item.type) && trigger.fires prior.item row.item :=
    mem_filter.mpr ⟨there,by simp only [identity,type,fires,decide_true,Bool.and_self]⟩
  obtain ⟨_,is⟩ := @foremost_some _ trigger.better _ _ sought
  rw [is]
  exact record_noted _ _

theorem fire_grown (t : Tables) (trigger : Trigger) (row : Observation) : Grown t (t.fire trigger row) := flag_grown _ _ _

theorem fires_grown (list : List Trigger) (t : Tables) (row : Observation) : Grown t (list.foldl (fun (t : Tables) trigger => t.fire trigger row) t) := by
  induction list generalizing t with
  | nil => exact Grown.refl t
  | cons trigger _ ih => exact (fire_grown t trigger row).trans (ih _)

theorem fires_noted {list : List Trigger} (mem : trigger ∈ list) (there : prior ∈ t.observations) (identity : prior.identity = row.identity)
    (type : prior.item.type = row.item.type) (fires : trigger.fires prior.item row.item) :
    (list.foldl (fun (t : Tables) trigger => t.fire trigger row) t).Noted row.request := by
  induction list generalizing t with
  | nil => cases mem
  | cons first rest ih =>
    rcases mem_cons.mp mem with rfl | later
    · exact (fire_noted there identity type fires).mono (fires_grown rest _ row).conflicts
    refine ih later ?_
    exact (fire_grown t first row).observations ▸ there

theorem resourceType_injective (same : resourceType left = resourceType right) : left = right := by
  revert same
  cases left <;> cases right <;> decide

theorem resourceType_project (type : DirectoryType) : resourceType type ≠ .project := by
  cases type <;> decide

theorem kind_of_type {left right : Item} (same : left.type = right.type) : left.kind = right.kind := by
  cases left with
  | resource =>
    cases right with
    | resource => rfl
    | project _ => exact absurd same (resourceType_project _)
  | project =>
    cases right with
    | resource _ => exact absurd same.symm (resourceType_project _)
    | project => rfl

theorem contradiction_fires (type : prior.type = new.type) (contradict : Contradict prior new) : ∃ trigger ∈ triggers new.kind, trigger.fires prior new := by
  have listed : ∀ trigger ∈ [revision_regressed,revision_reuse,external_collision,public_binding_change], trigger ∈ triggers new.kind := by
    intro _ mem
    cases new with
    | resource => exact mem_append_left [binding_disappeared] mem
    | project => exact mem
  rcases contradict with ⟨ids,revisions,different⟩ | ⟨bound,same,ids⟩ | ⟨ids,bound,newBound,different⟩
  · refine ⟨revision_reuse,listed _ (.tail _ (.head _)),?_⟩
    have differs : prior.differs new := by
      cases prior with
      | resource prior =>
        cases new with
        | resource new =>
          obtain ⟨_,_,_,_,_,_,binding⟩ := prior
          obtain ⟨_,_,_,_,_,_,newBinding⟩ := new
          cases ids
          cases revisions
          simp only [Item.differs,or_eq_true,decide_eq_true_eq]
          by_contra equal
          simp only [not_or,not_not] at equal
          obtain ⟨⟨⟨⟨⟨rfl,rfl⟩,rfl⟩,externals⟩,statuses⟩,bounds⟩ := equal
          refine different ?_
          cases resourceType_injective type
          cases binding with
          | none =>
            cases newBinding with
            | none => rfl
            | some => cases externals
          | some binding =>
            cases newBinding with
            | none => cases externals
            | some newBinding =>
              obtain ⟨_,_,_⟩ := binding
              obtain ⟨_,_,_⟩ := newBinding
              cases externals
              cases statuses
              cases bounds
              rfl
        | project =>
          exact absurd type (resourceType_project _)
      | project prior =>
        cases new with
        | resource =>
          exact absurd type.symm (resourceType_project _)
        | project new =>
          obtain ⟨_,_,_,_,_,_⟩ := prior
          obtain ⟨_,_,_,_,_,_⟩ := new
          cases ids
          cases revisions
          simp only [Item.differs,or_eq_true,decide_eq_true_eq]
          by_contra equal
          simp only [not_or,not_not] at equal
          obtain ⟨⟨⟨rfl,rfl⟩,rfl⟩,rfl⟩ := equal
          exact different rfl
    simp only [revision_reuse,samePublicId,ids,revisions,differs,decide_true,Bool.and_self]
  · refine ⟨external_collision,listed _ (.tail _ (.tail _ (.head _))),?_⟩
    simp only [external_collision,samePublicId,←same,bound,ids,decide_true,decide_false,Bool.not_false,Bool.and_self]
  · refine ⟨public_binding_change,listed _ (.tail _ (.tail _ (.tail _ (.head _)))),?_⟩
    simp only [public_binding_change,samePublicId,ids,bound,newBound,ne_eq,different,not_false_eq_true,decide_true,Bool.and_self]

theorem Contradict.symm (contradict : Contradict one other) : Contradict other one := by
  rcases contradict with ⟨ids,revisions,different⟩ | ⟨bound,same,ids⟩ | ⟨ids,bound,newBound,different⟩
  · exact .inl ⟨ids.symm,revisions.symm,different.symm⟩
  · exact .inr (.inl ⟨same ▸ bound,same.symm,ids.symm⟩)
  exact .inr (.inr ⟨ids.symm,newBound,bound,different.symm⟩)

theorem Contradict.irrefl (item : Item) : ¬Contradict item item := by
  rintro (⟨_,_,different⟩ | ⟨_,_,different⟩ | ⟨_,_,_,different⟩) <;> exact different rfl
end LedgeTopOps.InventoryObservations
