import LedgeTopOps.ReadyPromotion

namespace LedgeTopOps.ReadyPromotion
open List KeyedRows StepRuns

theorem steps_concat {α : Type} (items : List α) (step count : Nat) :
    (range count).flatMap (fun i => (items.drop (i * step)).take step) = items.take (count * step) := by
  induction count with
  | zero => rw [Nat.zero_mul,take_zero,range_zero,flatMap_nil]
  | succ _ ih =>
    rw [range_succ,flatMap_append,ih,flatMap_singleton,Nat.succ_mul,take_add]

section
variable {plan : MultipartCopyPlan}

structure Covers (plan : MultipartCopyPlan) (size : Nat) : Prop where
  some_ : 1 ≤ plan.partCount
  before : (plan.partCount - 1) * plan.partBytes ≤ size
  last : plan.lastPartBytes = size - (plan.partCount - 1) * plan.partBytes

theorem ceilDiv_bounds (positive : 0 < a) (divisor : 0 < b) : 1 ≤ ceilDiv a b ∧ (ceilDiv a b - 1) * b ≤ a := by
  unfold ceilDiv
  have least : 1 ≤ (a + b - 1) / b := (Nat.one_le_div_iff divisor).mpr (by omega)
  have most : (a + b - 1) / b * b ≤ a + b - 1 := Nat.div_mul_le_self _ _
  refine ⟨least,?_⟩
  rw [Nat.sub_mul,Nat.one_mul]
  omega

theorem plan_covers (is : planIncomingMultipartCopy size = some plan) : Covers plan size := by
  unfold planIncomingMultipartCopy at is
  split at is
  · cases is
  rename_i bounded
  dsimp only at is
  split at is
  · cases is
  split at is
  · cases is
  cases is
  have positive : 0 < size := by omega
  have part : 0 < max R2_MULTIPART_MIN_PART_BYTES (ceilDiv (ceilDiv size R2_MULTIPART_MAX_PARTS) R2_MULTIPART_MIN_PART_BYTES * R2_MULTIPART_MIN_PART_BYTES) :=
    Nat.lt_of_lt_of_le (by decide) (Nat.le_max_left _ _)
  obtain ⟨least,most⟩ := ceilDiv_bounds positive part
  exact ⟨least,most,congrArg (size - ·) (Nat.mul_comm _ _)⟩

theorem range_whole (bytes : Bytes) (earlier : number ≠ plan.partCount) :
    plan.range bytes number = (bytes.drop ((number - 1) * plan.partBytes)).take plan.partBytes := by
  unfold MultipartCopyPlan.range MultipartCopyPlan.length MultipartCopyPlan.offset
  rw [if_neg earlier]

theorem ranges_concat (covers : Covers plan size) (sized : bytes.length = size) :
    ((range plan.partCount).flatMap fun i => plan.range bytes (i + 1)) = bytes := by
  obtain ⟨least,before,last⟩ := covers
  obtain ⟨count,is⟩ : ∃ count, plan.partCount = count + 1 := ⟨plan.partCount - 1,by omega⟩
  rw [is,Nat.add_sub_cancel] at before last
  have whole : ((range count).flatMap fun i => plan.range bytes (i + 1)) =
      (range count).flatMap fun i => (bytes.drop (i * plan.partBytes)).take plan.partBytes := by
    refine flatMap_congr fun i mem => ?_
    have less := mem_range.mp mem
    rw [range_whole bytes (by omega),Nat.add_sub_cancel]
  have final : plan.range bytes (count + 1) = bytes.drop (count * plan.partBytes) := by
    unfold MultipartCopyPlan.range MultipartCopyPlan.length MultipartCopyPlan.offset
    rw [if_pos is.symm,Nat.add_sub_cancel,last]
    exact take_of_length_le (Nat.le_of_eq (by rw [length_drop,sized]))
  rw [is,range_succ,flatMap_append,flatMap_singleton,whole,steps_concat,final]
  exact take_append_drop ..
end

def listing (p : Provider) (plan : MultipartCopyPlan) (bytes : Bytes) (count : Nat) : List StoredPart :=
  (range count).map fun i => ⟨i + 1,p.partEtag (plan.range bytes (i + 1))⟩

variable {plan : MultipartCopyPlan} {count : Nat}

theorem listing_next : listing p plan bytes (count + 1) = listing p plan bytes count++[⟨count + 1,p.partEtag (plan.range bytes (count + 1))⟩] := by
  unfold listing
  rw [range_succ,map_append]
  rfl

theorem listing_numbers : (listing p plan bytes count).map StoredPart.partNumber = (range count).map (· + 1) := by
  unfold listing
  rw [map_map]
  rfl

theorem listing_tags (mem : part ∈ listing p plan bytes count) : part.etag = p.partEtag (plan.range bytes part.partNumber) := by
  obtain ⟨i,_,rfl⟩ := mem_map.mp mem
  rfl

theorem listing_concat (covers : Covers plan bytes.length) :
    ((listing p plan bytes plan.partCount).flatMap fun part => plan.range bytes part.partNumber) = bytes := by
  unfold listing
  rw [flatMap_map]
  exact ranges_concat covers rfl

theorem assembled {w : World}
    (sent : ∀ s ∈ w.sent, s.multipart = multipart → s.bytes = plan.range bytes s.number) (is : w.assemble p multipart parts = some object) :
    object = parts.flatMap fun part => plan.range bytes part.partNumber := by
  induction parts generalizing object with
  | nil =>
    cases is
    rfl
  | cons _ _ ih =>
    obtain ⟨_,found,more⟩ := Option.bind_eq_some_iff.mp is
    split at more
    · obtain ⟨_,later,joined⟩ := Option.bind_eq_some_iff.mp more
      cases joined
      obtain ⟨s,there,rfl⟩ := Option.map_eq_some_iff.mp found
      have names := find?_some there
      rw [decide_eq_true_eq] at names
      rw [flatMap_cons,←ih later,sent s (mem_of_find?_eq_some there) names.1,names.2]
    cases more
end LedgeTopOps.ReadyPromotion
