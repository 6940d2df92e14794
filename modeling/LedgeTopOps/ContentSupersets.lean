import LedgeTopOps.JsonText

namespace LedgeTopOps.ContentSupersets
open List JsonText

-- A file of an inventory: its path below the inventoried root, and its bytes by
-- their number and digest.
structure InventoryFile where
  relativePath : Text
  byteSize : Nat
  sha256 : Text

def slash : UInt16 := 0x2F

def InventoryFile.sameContent (copy original : InventoryFile) : Bool :=
  copy.byteSize == original.byteSize && copy.sha256 == original.sha256

-- new Map(files.map(...)).get: of two files at one path the later one counts.
def available (files : List InventoryFile) (path : Text) : Option InventoryFile :=
  files.reverse.find? fun file => file.relativePath == path

def candidates (first : InventoryFile) (files : List InventoryFile) : List InventoryFile :=
  files.filter fun file => file.sameContent first &&
    (file.relativePath == first.relativePath || (slash :: first.relativePath).isSuffixOf file.relativePath)

def contentSuperset (source target : List InventoryFile) : Bool :=
  match source with
  | [] => false
  | first :: _ => (candidates first target).any fun file =>
    let front := file.relativePath.take (file.relativePath.length - first.relativePath.length)
    source.all fun original => (available target (front++original.relativePath)).any fun copy => copy.sameContent original

def Directory (front : Text) : Prop := front = [] ∨ ∃ parent, front = parent++[slash]
def Inventory (files : List InventoryFile) : Prop := (files.map InventoryFile.relativePath).Nodup

def CopiedBelow (target : List InventoryFile) (front : Text) (original : InventoryFile) : Prop :=
  ∃ copy ∈ target, copy.relativePath = front++original.relativePath ∧ copy.byteSize = original.byteSize ∧
    copy.sha256 = original.sha256

section
variable {target : List InventoryFile} {front path : Text} {original first copy : InventoryFile}

theorem sameContent_iff : copy.sameContent original ↔ copy.byteSize = original.byteSize ∧ copy.sha256 = original.sha256 := by
  simp [InventoryFile.sameContent]

theorem available_iff (distinct : Inventory target) : available target path = some copy ↔ copy ∈ target ∧ copy.relativePath = path := by
  have only : ∀ file ∈ target, ∀ other ∈ target, file.relativePath = other.relativePath → file = other :=
    fun file mem other there same => inj_on_of_nodup_map distinct mem there same
  constructor
  · intro found
    have mem := mem_reverse.mp (mem_of_find?_eq_some found)
    have there := find?_some found
    exact ⟨mem,by simpa using there⟩
  rintro ⟨mem,rfl⟩
  cases found : available target copy.relativePath with
  | none =>
    have missing := find?_eq_none.mp found copy (mem_reverse.mpr mem)
    simp at missing
  | some other =>
    have there := mem_reverse.mp (mem_of_find?_eq_some found)
    have same := find?_some found
    rw [only other there copy mem (by simpa using same)]

theorem copied_iff (distinct : Inventory target) :
    ((available target (front++original.relativePath)).any fun copy => copy.sameContent original) ↔ CopiedBelow target front original := by
  rw [Option.any_eq_true]
  constructor
  · rintro ⟨copy,found,same⟩
    obtain ⟨mem,path⟩ := (available_iff distinct).mp found
    exact ⟨copy,mem,path,sameContent_iff.mp same⟩
  rintro ⟨copy,mem,path,same⟩
  exact ⟨copy,(available_iff distinct).mpr ⟨mem,path⟩,sameContent_iff.mpr same⟩

theorem candidate_iff : copy ∈ candidates first target ↔ copy ∈ target ∧ (copy.byteSize = first.byteSize ∧ copy.sha256 = first.sha256) ∧
    ∃ front, Directory front ∧ copy.relativePath = front++first.relativePath := by
  rw [candidates,mem_filter,Bool.and_eq_true,sameContent_iff,Bool.or_eq_true,beq_iff_eq,isSuffixOf_iff_suffix]
  refine and_congr_right fun _ => and_congr_right fun _ => ?_
  constructor
  · rintro (same | ⟨parent,same⟩)
    · exact ⟨[],.inl rfl,same⟩
    · exact ⟨parent++[slash],.inr ⟨parent,rfl⟩,by simp [←same]⟩
  rintro ⟨front,rfl | ⟨parent,rfl⟩,same⟩
  · exact .inl same
  · exact .inr ⟨parent,by simp [same]⟩

theorem front_taken (split : path = front++first.relativePath) : path.take (path.length - first.relativePath.length) = front := by
  rw [split,length_append,Nat.add_sub_cancel,take_left]
end

-- The proof accepts exactly the targets that hold the whole source tree below
-- one directory.
theorem contentSuperset_exact (source target : List InventoryFile) (distinct : Inventory target) : (contentSuperset source target = true ↔
      source ≠ [] ∧ ∃ front, Directory front ∧ ∀ original ∈ source, CopiedBelow target front original) ∧
    ∀ original ∈ source, (∀ front, Directory front → ¬CopiedBelow target front original) → contentSuperset source target = false := by
  have exact_ : contentSuperset source target = true ↔ source ≠ [] ∧ ∃ front, Directory front ∧ ∀ original ∈ source, CopiedBelow target front original := by
    cases source with
    | nil => simp [contentSuperset]
    | cons first =>
      simp only [contentSuperset,any_eq_true,all_eq_true]
      constructor
      · rintro ⟨file,member,copied⟩
        obtain ⟨_,_,front,directory,split⟩ := candidate_iff.mp member
        rw [front_taken split] at copied
        exact ⟨cons_ne_nil _ _,front,directory,fun original inside => (copied_iff distinct).mp (copied original inside)⟩
      rintro ⟨_,front,directory,copied⟩
      obtain ⟨file,member,path,same⟩ := copied first mem_cons_self
      refine ⟨file,candidate_iff.mpr ⟨member,same,front,directory,path⟩,?_⟩
      rw [front_taken path]
      exact fun original inside => (copied_iff distinct).mpr (copied original inside)
  refine ⟨exact_,fun original inside nowhere => ?_⟩
  cases proved : contentSuperset source target with
  | false => rfl
  | true =>
    obtain ⟨_,front,directory,copied⟩ := exact_.mp proved
    exact absurd (copied original inside) (nowhere front directory)

def originals : List InventoryFile := [⟨[0x61],3,[0x31]⟩,⟨[0x62],5,[0x32]⟩]
def copies : List InventoryFile := [⟨[0x64,0x2F,0x62],5,[0x32]⟩,⟨[0x64,0x2F,0x61],3,[0x31]⟩]

theorem contentSuperset_example : (contentSuperset originals copies = true ↔
      originals ≠ [] ∧ ∃ front, Directory front ∧ ∀ original ∈ originals, CopiedBelow copies front original) ∧
    ∀ original ∈ originals, (∀ front, Directory front → ¬CopiedBelow copies front original) → contentSuperset originals copies = false :=
  contentSuperset_exact originals copies (by unfold Inventory; decide)
end LedgeTopOps.ContentSupersets
