import LedgeTopOps.ZipNames

namespace LedgeTopOps.ZipNameSeparators
open List JsonText FreshNames ZipNames

-- A name that ends in the separator is a directory to readers of the archive.
def Trailing (name : Text) : Prop := name.getLast? = some 0x2F

-- Lower-casing maps no other character to the separator, and it to no other.
def Separated (platform : Platform) : Prop := ∀ name, Trailing (platform.lower name) ↔ Trailing name

def CutBehind (maximumBytes : Nat) (text : Text) : Prop :=
  ∃ front back, characters text = front++[0x2F] :: back ∧ utf8Length (front.flatten++[0x2F]) ≤ maximumBytes ∧
    ∀ next ∈ back.head?, maximumBytes < utf8Length (front.flatten++[0x2F]++next)

def CutBehindSeparator (platform : Platform) (path : Text) : Prop := CutBehind 240 (safeZipName platform path)

section

theorem utf8From_front (front back : Text) : utf8From paired front ≤ utf8From paired (front++back) := by
  induction front generalizing paired with
  | nil => exact Nat.zero_le _
  | cons _ _ ih => exact Nat.add_le_add_left ih _

theorem characters_full (mem : character ∈ characters text) : character ≠ [] := by
  induction text using characters.induct with
  | case1 => cases mem
  | case2 =>
    rw [characters,mem_singleton] at mem
    simp [mem]
  | case3 _ _ _ pair ih =>
    rw [characters,if_pos pair] at mem
    rcases mem_cons.mp mem with rfl | deeper
    · exact cons_ne_nil _ _
    exact ih deeper
  | case4 _ _ _ lone ih =>
    rw [characters,if_neg lone] at mem
    rcases mem_cons.mp mem with rfl | deeper
    · exact cons_ne_nil _ _
    exact ih deeper

theorem characters_separator (mem : character ∈ characters text) (last : character.getLast? = some 0x2F) : character = [0x2F] := by
  induction text using characters.induct with
  | case1 => cases mem
  | case2 =>
    rw [characters,mem_singleton] at mem
    rw [mem] at last ⊢
    simpa using last
  | case3 _ d _ pair ih =>
    rw [characters,if_pos pair] at mem
    rcases mem_cons.mp mem with rfl | deeper
    · have same : d = 0x2F := by simpa using last
      rw [same,show low 0x2F = false by decide,Bool.and_false] at pair
      cases pair
    exact ih deeper
  | case4 _ _ _ lone ih =>
    rw [characters,if_neg lone] at mem
    rcases mem_cons.mp mem with rfl | deeper
    · simpa using last
    exact ih deeper

theorem truncateFrom_kept (maximumBytes : Nat) (result : Text) (rest : List Text) : ∃ taken left, rest = taken++left ∧
    truncateFrom maximumBytes result rest = result++taken.flatten ∧ (taken = [] ∨ utf8Length (result++taken.flatten) ≤ maximumBytes) ∧
    ∀ next ∈ left.head?, maximumBytes < utf8Length (result++taken.flatten++next) := by
  induction rest generalizing result with
  | nil => exact ⟨[],[],rfl,by simp [truncateFrom],.inl rfl,by simp⟩
  | cons character rest ih =>
    rw [truncateFrom]
    split
    · rename_i large
      exact ⟨[],character :: rest,rfl,by simp,.inl rfl,by simpa using large⟩
    rename_i fits
    obtain ⟨taken,left,rfl,kept,inside,ends⟩ := ih (result++character)
    refine ⟨character :: taken,left,rfl,by simpa using kept,.inr ?_,by simpa using ends⟩
    rcases inside with rfl | inside
    · simpa using fits
    simpa using inside

theorem truncateFrom_through (result : Text) (taken left : List Text) (fits : utf8Length (result++taken.flatten) ≤ maximumBytes)
    (ends : ∀ next ∈ left.head?, maximumBytes < utf8Length (result++taken.flatten++next)) :
    truncateFrom maximumBytes result (taken++left) = result++taken.flatten := by
  induction taken generalizing result with
  | nil =>
    cases left with
    | nil => simp [truncateFrom]
    | cons next =>
      have large := ends next rfl
      rw [flatten_nil,append_nil] at large ⊢
      rw [nil_append,truncateFrom,if_pos large]
  | cons character taken ih =>
    rw [flatten_cons,←append_assoc] at fits ends ⊢
    have here : utf8Length (result++character) ≤ maximumBytes := (utf8From_front _ taken.flatten).trans fits
    rw [cons_append,truncateFrom,if_neg (Nat.not_lt.mpr here)]
    exact ih (result++character) fits ends

theorem truncateUtf8_trailing : Trailing (truncateUtf8 text maximumBytes) ↔ CutBehind maximumBytes text := by
  constructor
  · intro trailing
    obtain ⟨taken,left,whole,kept,inside,ends⟩ := truncateFrom_kept maximumBytes [] (characters text)
    rw [Trailing,truncateUtf8,kept,nil_append] at trailing
    rcases eq_nil_or_concat taken with rfl | ⟨front,last,rfl⟩
    · cases trailing
    have mem : last ∈ characters text := by simp [whole]
    have full := characters_full mem
    have ending : last.getLast? = some 0x2F := by
      rw [concat_eq_append,flatten_append,flatten_singleton,List.getLast?_append_of_ne_nil _ full] at trailing
      exact trailing
    cases characters_separator mem ending
    refine ⟨front,left,by simpa using whole,?_,by simpa using ends⟩
    simpa using inside
  rintro ⟨front,back,whole,fits,ends⟩
  have kept : truncateFrom maximumBytes [] ((front++[[0x2F]])++back) = []++(front++[[0x2F]]).flatten :=
    truncateFrom_through [] (front++[[0x2F]]) back (by simpa using fits) (by simpa using ends)
  rw [Trailing,truncateUtf8,whole,append_cons,kept]
  simp
end

section

theorem baseName_trailing : Trailing (baseName platform value) ↔ CutBehindSeparator platform value := by
  rw [CutBehindSeparator,←truncateUtf8_trailing]
  unfold baseName orFile
  split
  · rename_i empty
    have plain : ¬Trailing file := by unfold Trailing; decide
    have none_ : ¬Trailing [] := by unfold Trailing; decide
    rw [empty]
    exact iff_of_false plain none_
  rfl

theorem copyName_trailing (base : Text) (copy : Nat) : ¬Trailing (copyName base copy) := by
  intro trailing
  have last : (copyName base copy).getLast? = (suffix copy).getLast? := by
    rw [copyName,List.getLast?_append]
    cases ends : (suffix copy).getLast? with
    | none => simp [suffix] at ends
    | some => rfl
  rw [Trailing,last] at trailing
  rcases mem_cons.mp (List.mem_of_getLast? trailing) with same | inside
  · cases same
  obtain ⟨d,small,same⟩ := decimal_digits inside
  have number := congrArg UInt16.toNat same
  rw [digit_toNat small] at number
  have separator : (0x2F : UInt16).toNat = 47 := rfl
  omega

theorem uniqueFrom_files (files : ∀ value ∈ names, ¬Trailing (baseName platform value))
    (ran : uniqueFrom platform fuel used names = some result) : ∀ name ∈ result, ¬Trailing name := by
  intro name mem
  obtain ⟨value,there,same | ⟨copy,_,same⟩⟩ := uniqueFrom_among ran name mem
  · rw [same]
    exact files value there
  rw [same]
  exact copyName_trailing _ _

theorem uniqueFrom_directory (separated : Separated platform) (before : ∀ name ∈ used, ¬Trailing name)
    (ran : uniqueFrom platform fuel used names = some result) (files : ∀ name ∈ result, ¬Trailing name) :
    ∀ value ∈ names, ¬Trailing (baseName platform value) := by
  induction names generalizing used result with
  | nil => exact forall_mem_nil _
  | cons value rest ih =>
    rw [uniqueFrom] at ran
    split at ran
    · cases ran
    rename_i candidate found
    obtain ⟨_,deeper,rfl⟩ := Option.map_eq_some_iff.mp ran
    have here := files candidate mem_cons_self
    have apart : ¬Trailing (platform.lower candidate) := fun trailing => here ((separated candidate).mp trailing)
    have later_files := ih (forall_mem_cons.mpr ⟨apart,before⟩) deeper fun name mem => files name (mem_cons_of_mem _ mem)
    refine forall_mem_cons.mpr ⟨fun trailing => ?_,later_files⟩
    have free : platform.lower (baseName platform value) ∉ used := fun taken => before _ taken ((separated _).mpr trailing)
    cases fuel with
    | zero => cases found
    | succ =>
      rw [search_unused free] at found
      cases found
      exact here trailing
end

-- Exactly the lists of paths of which none is cut behind a separator stay files.
theorem files_stay_files_iff (platform : Platform) (documented : Documented platform) (separated : Separated platform) (array : NameArray) :
    ∃ result, (∀ fuel, array.names.length + 2 ≤ fuel → uniqueZipEntryNames platform fuel array.names = some result) ∧
      ((∀ name ∈ result, ¬Trailing name) ↔ ∀ path ∈ array.names, ¬CutBehindSeparator platform path) := by
  have short := array.short
  have whole : ∃ result, uniqueFrom platform (array.names.length + 2) [] array.names = some result ∧ UniqueFrom platform [] array.names result :=
    uniqueFrom_total documented (by rw [length_nil]; omega) (by rw [length_nil]; omega)
  obtain ⟨result,ran,_⟩ := whole
  refine ⟨result,fun fuel more => uniqueFrom_mono ran more,?_,?_⟩
  · intro files path member cut
    exact uniqueFrom_directory separated (forall_mem_nil _) ran files path member (baseName_trailing.mpr cut)
  intro uncut
  exact uniqueFrom_files (fun path member trailing => uncut path member (baseName_trailing.mp trailing)) ran

theorem basicLatin_separated : Separated basicLatin := by
  intro name
  have unit : ∀ c : UInt16, (if 0x41 ≤ c ∧ c ≤ 0x5A then c + 0x20 else c) = 0x2F ↔ c = 0x2F := by
    intro c
    split
    · rename_i upper
      constructor
      · intro same
        have number := congrArg UInt16.toNat same
        have low := UInt16.le_iff_toNat_le.mp upper.1
        have high := UInt16.le_iff_toNat_le.mp upper.2
        simp at number low high
        omega
      rintro rfl
      exact absurd upper (by decide)
    rfl
  unfold Trailing
  change (name.map fun c => if 0x41 ≤ c ∧ c ≤ 0x5A then c + 0x20 else c).getLast? = some 0x2F ↔ _
  rw [List.getLast?_map]
  cases name.getLast? with
  | none => simp
  | some => simp [unit]

def longPath : Text := replicate 239 0x61++[0x2F,0x62]

theorem longPath_cut : CutBehindSeparator basicLatin longPath := by
  have basic : Basic longPath := by
    intro c mem
    simp only [longPath,mem_append,mem_replicate,mem_cons,not_mem_nil,or_false] at mem
    rcases mem with ⟨_,rfl⟩ | rfl | rfl <;> decide
  have safe : safeZipName basicLatin longPath = longPath := by decide +kernel
  rw [CutBehindSeparator,safe,←truncateUtf8_trailing,truncateUtf8_basic basic,Trailing]
  decide

theorem file_becomes_directory : ∃ array : NameArray, (∀ path ∈ array.names, ¬Trailing path) ∧
    ∀ result, uniqueZipEntryNames basicLatin (array.names.length + 2) array.names = some result → ∃ name ∈ result, Trailing name := by
  refine ⟨⟨[longPath],by decide⟩,?_,?_⟩
  · intro _ member
    rw [mem_singleton.mp member]
    unfold Trailing
    decide
  intro result ran
  by_contra none_
  have files : ∀ name ∈ result, ¬Trailing name := fun name member trailing => none_ ⟨name,member,trailing⟩
  exact uniqueFrom_directory basicLatin_separated (forall_mem_nil _) ran files longPath (mem_singleton.mpr rfl) (baseName_trailing.mpr longPath_cut)

theorem files_stay_files_example : ∃ result, (∀ fuel, 3 ≤ fuel → uniqueZipEntryNames basicLatin fuel [longPath] = some result) ∧
      ((∀ name ∈ result, ¬Trailing name) ↔ ∀ path ∈ [longPath], ¬CutBehindSeparator basicLatin path) :=
  files_stay_files_iff basicLatin basicLatin_documented basicLatin_separated ⟨[longPath],by decide⟩
end LedgeTopOps.ZipNameSeparators
