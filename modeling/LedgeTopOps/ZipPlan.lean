import LedgeTopOps.ZipNames
import LedgeTopOps.PartLayouts

namespace LedgeTopOps.ZipPlan
open List JsonText FreshNames ZipNames PartLayouts

def ZIP_SOURCE_READ_CHUNK : Nat := 8388608
def ZIP_MULTIPART_MAX_PART : Nat := 33554432
def ZIP_MULTIPART_MIN_PART : Nat := 5242880
def maximumSafeInteger : Nat := 9007199254740991

structure Entry where
  name : Text
  size : Int

inductive Failure where
  | entrySize | archiveSize | layoutCapacity
deriving DecidableEq

def Failure.message : Failure → String
  | .entrySize => "ZIP entry size is invalid"
  | .archiveSize => "ZIP archive size is invalid"
  | .layoutCapacity => "multipart-layout-capacity"

structure OnePassZipMultipartPlan where
  (prefixSize trailerSize archiveSize partSize prefixPartCount finalPrefixBytes partCount : Nat)
deriving DecidableEq

-- The loops of uniqueZipEntryNames end within this fuel.
def entryNames (platform : Platform) (entries : List Entry) : List Text :=
  (uniqueZipEntryNames platform (entries.length + 2) (entries.map Entry.name)).getD []

def headerSize (name : Text) : Nat := 50 + utf8Length name

def prefixFrom : Nat → List (Entry × Text) → Except Failure Nat
  | total,[] => .ok total
  | total,(entry,name) :: rest =>
    if entry.size < 0 ∨ maximumSafeInteger < entry.size then .error .entrySize else
    if maximumSafeInteger < total + (headerSize name + entry.size.toNat + 24) then .error .archiveSize else
    prefixFrom (total + (headerSize name + entry.size.toNat + 24)) rest

def onePassZipPrefixSize (platform : Platform) (entries : List Entry) : Except Failure Nat :=
  prefixFrom 0 (entries.zip (entryNames platform entries))

def trailerFrom : Nat → List Text → Nat
  | total,[] => total
  | total,name :: rest => trailerFrom (total + 74 + utf8Length name) rest

def onePassZipTrailerSize (platform : Platform) (entries : List Entry) : Nat := trailerFrom 98 (entryNames platform entries)

def attempt (prefixSize trailerSize count : Nat) : Option OnePassZipMultipartPlan :=
  if prefixSize / count < ZIP_MULTIPART_MIN_PART ∨ ZIP_MULTIPART_MAX_PART < prefixSize / count then none else
  if prefixSize - count * (prefixSize / count) + trailerSize ≤ prefixSize / count then
    some ⟨prefixSize,trailerSize,prefixSize + trailerSize,prefixSize / count,count,prefixSize - count * (prefixSize / count),count + 1⟩
  else none

def counts (prefixSize : Nat) : List Nat :=
  range' (fewest ZIP_MULTIPART_MAX_PART prefixSize)
    (prefixSize / ZIP_MULTIPART_MIN_PART + 1 - fewest ZIP_MULTIPART_MAX_PART prefixSize)

def planSizes (prefixSize trailerSize : Nat) : Except Failure OnePassZipMultipartPlan :=
  if prefixSize + trailerSize ≤ ZIP_MULTIPART_MAX_PART then
    .ok ⟨prefixSize,trailerSize,prefixSize + trailerSize,prefixSize + trailerSize,0,prefixSize,1⟩
  else match (counts prefixSize).findSome? (attempt prefixSize trailerSize) with
    | some plan => .ok plan
    | none => .error .layoutCapacity

def planOnePassZipMultipart (platform : Platform) (entries : List Entry) : Except Failure OnePassZipMultipartPlan :=
  match onePassZipPrefixSize platform entries with
  | .error failed => .error failed
  | .ok prefixSize => planSizes prefixSize (onePassZipTrailerSize platform entries)

-- The planner gives up only on sizes that have no layout.
def Complete (platform : Platform) (entries : List Entry) : Prop :=
  planOnePassZipMultipart platform entries = .error .layoutCapacity →
    ∀ prefixSize, onePassZipPrefixSize platform entries = .ok prefixSize →
      ¬∃ count size, Layout ZIP_MULTIPART_MIN_PART ZIP_MULTIPART_MAX_PART prefixSize (onePassZipTrailerSize platform entries) count size

-- The entries fit into one largest part, or the part after the whole largest ones does not take the rest and the
-- central directory, or some number of parts divides them evenly enough.
def Plannable (prefixSize trailerSize : Nat) : Prop :=
  prefixSize ≤ ZIP_MULTIPART_MAX_PART ∨
    fewest ZIP_MULTIPART_MAX_PART prefixSize * ZIP_MULTIPART_MAX_PART < prefixSize + trailerSize ∨
    ∃ count, fewest ZIP_MULTIPART_MAX_PART prefixSize ≤ count ∧ count ≤ prefixSize / ZIP_MULTIPART_MIN_PART ∧
      Evenly prefixSize trailerSize count

section
variable {count : Nat}

theorem trailerFrom_le (names : List Text) : total ≤ trailerFrom total names := by
  induction names generalizing total with
  | nil => exact Nat.le_refl _
  | cons name _ ih =>
    have later := @ih (total + 74 + utf8Length name)
    rw [trailerFrom]
    omega

theorem trailer_positive (platform : Platform) (entries : List Entry) : 0 < onePassZipTrailerSize platform entries := by
  have least : 98 ≤ onePassZipTrailerSize platform entries := trailerFrom_le _
  omega

theorem minimum_positive : 0 < ZIP_MULTIPART_MIN_PART := by decide
theorem minimum_maximum : ZIP_MULTIPART_MIN_PART ≤ ZIP_MULTIPART_MAX_PART := by decide

theorem attempt_none (positive : 0 < trailerSize) (enough : fewest ZIP_MULTIPART_MAX_PART prefixSize ≤ count)
    (few : count ≤ prefixSize / ZIP_MULTIPART_MIN_PART) : attempt prefixSize trailerSize count = none ↔ ¬Evenly prefixSize trailerSize count := by
  constructor
  · intro failed even
    have one := even.one positive
    rw [fewest_le (by decide)] at enough
    have layout := even.layout one enough few minimum_positive
    have sized : ¬(prefixSize / count < ZIP_MULTIPART_MIN_PART ∨ ZIP_MULTIPART_MAX_PART < prefixSize / count) := by
      have large := layout.large
      have small := layout.small
      omega
    rw [attempt,if_neg sized,if_pos layout.rest] at failed
    cases failed
  intro uneven
  unfold attempt
  split
  · rfl
  split
  · rename_i fits
    have cut := Nat.div_add_mod prefixSize count
    have left : prefixSize - count * (prefixSize / count) = prefixSize % count := by omega
    rw [left] at fits
    exact absurd fits uneven
  rfl

theorem planSizes_fails (positive : 0 < trailerSize) : planSizes prefixSize trailerSize = .error .layoutCapacity ↔
    ZIP_MULTIPART_MAX_PART < prefixSize + trailerSize ∧
      ¬∃ count, fewest ZIP_MULTIPART_MAX_PART prefixSize ≤ count ∧ count ≤ prefixSize / ZIP_MULTIPART_MIN_PART ∧ Evenly prefixSize trailerSize count := by
  have within (count : Nat) : count ∈ counts prefixSize ↔ fewest ZIP_MULTIPART_MAX_PART prefixSize ≤ count ∧ count ≤ prefixSize / ZIP_MULTIPART_MIN_PART := by
    rw [counts,mem_range'_1]
    omega
  have search : (counts prefixSize).findSome? (attempt prefixSize trailerSize) = none ↔
      ¬∃ count, fewest ZIP_MULTIPART_MAX_PART prefixSize ≤ count ∧ count ≤ prefixSize / ZIP_MULTIPART_MIN_PART ∧
        Evenly prefixSize trailerSize count := by
    rw [List.findSome?_eq_none_iff]
    constructor
    · rintro all ⟨count,enough,few,even⟩
      exact (attempt_none positive enough few).mp (all count ((within count).mpr ⟨enough,few⟩)) even
    intro never count mem
    obtain ⟨enough,few⟩ := (within count).mp mem
    exact (attempt_none positive enough few).mpr fun even => never ⟨count,enough,few,even⟩
  rw [←search]
  unfold planSizes
  split
  · rename_i single
    constructor
    · intro same
      cases same
    rintro ⟨large,_⟩
    omega
  rename_i large
  cases found : (counts prefixSize).findSome? (attempt prefixSize trailerSize) with
  | none => exact ⟨fun _ => ⟨by omega,rfl⟩,fun _ => rfl⟩
  | some =>
    constructor
    · intro same
      cases same
    rintro ⟨_,same⟩
    cases same
end

theorem plan_complete_iff (platform : Platform) (entries : List Entry) : Complete platform entries ↔
    ∀ prefixSize, onePassZipPrefixSize platform entries = .ok prefixSize → Plannable prefixSize (onePassZipTrailerSize platform entries) := by
  have positive := trailer_positive platform entries
  unfold Complete planOnePassZipMultipart
  cases sized : onePassZipPrefixSize platform entries with
  | error =>
    constructor
    · intro _ _ same
      cases same
    intro _ _ _ same
    cases same
  | ok =>
    rw [planSizes_fails positive]
    constructor
    · intro complete _ same
      cases same
      by_contra missed
      obtain ⟨large,rest⟩ := not_or.mp missed
      obtain ⟨fits,uneven⟩ := not_or.mp rest
      refine complete ⟨by omega,uneven⟩ _ rfl ?_
      rw [layout_iff minimum_positive minimum_maximum positive]
      exact .inr ⟨by omega,by omega⟩
    intro plannable ⟨_,uneven⟩ _ same exists_
    cases same
    rw [layout_iff minimum_positive minimum_maximum positive] at exists_
    rcases exists_ with even | ⟨large,fits⟩
    · exact uneven even
    rcases plannable _ rfl with small | short | even
    · omega
    · omega
    exact uneven even

section

theorem prefixFrom_small (small : ∀ pair ∈ pairs, pair.1.size = 60 ∧ 1 ≤ utf8Length pair.2 ∧ utf8Length pair.2 ≤ 8)
    (safe : total + 142 * pairs.length ≤ maximumSafeInteger) :
    ∃ prefixSize, prefixFrom total pairs = .ok prefixSize ∧ total + 135 * pairs.length ≤ prefixSize ∧ prefixSize ≤ total + 142 * pairs.length := by
  induction pairs generalizing total with
  | nil => exact ⟨total,rfl,Nat.le_refl _,Nat.le_refl _⟩
  | cons pair rest ih =>
    obtain ⟨entry,name⟩ := pair
    obtain ⟨size,least,most⟩ := small _ mem_cons_self
    dsimp only at size least most
    rw [length_cons] at safe
    have bytes : headerSize name + entry.size.toNat + 24 = 134 + utf8Length name := by
      unfold headerSize
      omega
    have valid : ¬(entry.size < 0 ∨ (maximumSafeInteger : Int) < entry.size) := by
      omega
    have later := ih (fun other mem => small other (mem_cons_of_mem _ mem))
      (show total + (134 + utf8Length name) + 142 * rest.length ≤ maximumSafeInteger by omega)
    obtain ⟨prefixSize,ran,low_,high_⟩ := later
    refine ⟨prefixSize,?_,by rw [length_cons]; omega,by rw [length_cons]; omega⟩
    rw [prefixFrom,if_neg valid,bytes,if_neg (by omega),ran]

theorem trailerFrom_small (small : ∀ name ∈ names, 1 ≤ utf8Length name ∧ utf8Length name ≤ 8) :
    total + 75 * names.length ≤ trailerFrom total names ∧ trailerFrom total names ≤ total + 82 * names.length := by
  induction names generalizing total with
  | nil => exact ⟨Nat.le_refl _,Nat.le_refl _⟩
  | cons name _ ih =>
    obtain ⟨least,most⟩ := small _ mem_cons_self
    have later := @ih (total + 74 + utf8Length name) fun other mem => small other (mem_cons_of_mem _ mem)
    rw [trailerFrom,length_cons]
    omega
end

def manySmall : List Entry := replicate 270000 ⟨[0x61],60⟩

theorem manySmall_names : ∃ names, entryNames basicLatin manySmall = names ∧ names.length = 270000 ∧
    ∀ name ∈ names, 1 ≤ utf8Length name ∧ utf8Length name ≤ 8 := by
  have count : manySmall.length = 270000 := length_replicate
  have total : ∃ names, uniqueFrom basicLatin (manySmall.length + 2) [] (manySmall.map Entry.name) = some names ∧
      UniqueFrom basicLatin [] (manySmall.map Entry.name) names :=
    uniqueFrom_total basicLatin_documented (by rw [length_nil,length_map,count]; decide)
      (by rw [length_nil,length_map,count])
  obtain ⟨names,ran,unique⟩ := total
  have named : entryNames basicLatin manySmall = names := by
    rw [entryNames,uniqueZipEntryNames,ran]
    rfl
  have base : baseName basicLatin [0x61] = [0x61] := by decide
  refine ⟨names,named,by rw [unique.length,length_map,count],fun name mem => ?_⟩
  obtain ⟨value,there,shape⟩ := uniqueFrom_among ran name mem
  have letter : value = [0x61] := by
    obtain ⟨_,inside,rfl⟩ := mem_map.mp there
    rw [(mem_replicate.mp inside).2]
  rw [letter,base] at shape
  rcases shape with rfl | ⟨copy,few,rfl⟩
  · decide
  have digits : (decimal copy).length ≤ 6 := decimal_length_le (by decide) (by omega)
  have cut : Basic [0x61] := by
    intro c inside
    rw [mem_singleton.mp inside]
    decide
  have ending : Basic (suffix copy) := by
    intro c inside
    rcases mem_cons.mp inside with rfl | digit_
    · decide
    exact decimal_basic copy c digit_
  have whole : Basic (copyName [0x61] copy) := by
    intro c inside
    rcases mem_append.mp inside with front | back
    · exact cut c (truncateUtf8_units front)
    exact ending c back
  rw [utf8Length_basic whole,copyName,truncateUtf8_basic cut,length_append,length_take,length_singleton,suffix, length_cons]
  omega

-- Two parts are too many to divide the files evenly, one largest part and the
-- rest with the central directory are not.
theorem manySmall_missed : ¬Complete basicLatin manySmall := by
  intro complete
  obtain ⟨names,named,count,small⟩ := manySmall_names
  have entries : manySmall.length = 270000 := length_replicate
  have pairs : (manySmall.zip names).length = 270000 := by rw [length_zip,entries,count,Nat.min_self]
  have sizes : ∀ pair ∈ manySmall.zip names, pair.1.size = 60 ∧ 1 ≤ utf8Length pair.2 ∧ utf8Length pair.2 ≤ 8 := by
    intro pair member
    obtain ⟨left,right⟩ := of_mem_zip (show (pair.1,pair.2) ∈ manySmall.zip names from member)
    refine ⟨?_,small _ right⟩
    rw [(mem_replicate.mp left).2]
  have safe : 0 + 142 * (manySmall.zip names).length ≤ maximumSafeInteger := by
    rw [pairs]
    decide
  obtain ⟨prefixSize,sized,low_,high_⟩ := prefixFrom_small sizes safe
  have trailer := @trailerFrom_small names 98 small
  have directory : onePassZipTrailerSize basicLatin manySmall = trailerFrom 98 names := by rw [onePassZipTrailerSize,named]
  have prefix_ : onePassZipPrefixSize basicLatin manySmall = .ok prefixSize := by rw [onePassZipPrefixSize,named,sized]
  have largest : ZIP_MULTIPART_MAX_PART = 33554432 := rfl
  have two : fewest ZIP_MULTIPART_MAX_PART prefixSize = 2 := by
    unfold fewest
    rw [largest]
    omega
  have failed : planOnePassZipMultipart basicLatin manySmall = .error .layoutCapacity := by
    rw [planOnePassZipMultipart,prefix_]
    rw [directory,planSizes_fails (by omega)]
    refine ⟨by omega,?_⟩
    rintro ⟨parts,enough,_,even⟩
    rw [two] at enough
    have half : prefixSize / parts ≤ prefixSize / 2 := Nat.div_le_div_left enough (by decide)
    unfold Evenly at even
    omega
  refine complete failed prefixSize prefix_ ⟨_,_,layout_largest (by decide) minimum_maximum (by omega) ?_⟩
  rw [directory,two]
  omega
end LedgeTopOps.ZipPlan
