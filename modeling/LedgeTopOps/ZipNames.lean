import LedgeTopOps.JsonText
import LedgeTopOps.FreshNames

namespace LedgeTopOps.ZipNames
open List JsonText FreshNames

-- normalize("NFC") and toLocaleLowerCase("en-US"), whose tables are the
-- platform's.
structure Platform where
  (normalize lower : Text → Text)

-- The characters of a string: a pair of surrogates is one of them.
def characters : Text → List Text
  | [] => []
  | [c] => [[c]]
  | c :: d :: rest => if high c && low d then [c,d] :: characters rest else [c] :: characters (d :: rest)

def truncateFrom (maximumBytes : Nat) : Text → List Text → Text
  | result,[] => result
  | result,character :: rest =>
    if utf8Length (result++character) > maximumBytes then result
    else truncateFrom maximumBytes (result++character) rest

def truncateUtf8 (value : Text) (maximumBytes : Nat) : Text := truncateFrom maximumBytes [] (characters value)

def replaced (c : UInt16) : Bool :=
  decide (c ≤ 0x1F) || c == 0x7F || c == 0x5C || c == 0x3A || c == 0x2A || c == 0x3F || c == 0x22 || c == 0x3C ||
    c == 0x3E || c == 0x7C

def file : Text := ascii "file"
def orFile (text : Text) : Text := if text = [] then file else text

def safeZipName (platform : Platform) (name : Text) : Text :=
  orFile ((platform.normalize name).map fun c => if replaced c then 0x5F else c)

def baseName (platform : Platform) (value : Text) : Text := orFile (truncateUtf8 (safeZipName platform value) 240)
def suffix (copy : Nat) : Text := 0x7E :: decimal copy
def copyName (base : Text) (copy : Nat) : Text := truncateUtf8 base (240 - utf8Length (suffix copy))++suffix copy

-- The collision loop of one name, then the names after it. Fuel bounds the
-- rounds of a loop that the source leaves unbounded.
def uniqueFrom (platform : Platform) (fuel : Nat) : List Text → List Text → Option (List Text)
  | _,[] => some []
  | used,value :: rest =>
    match search platform.lower used (copyName (baseName platform value)) fuel 2 (baseName platform value) with
    | none => none
    | some candidate => (uniqueFrom platform fuel (platform.lower candidate :: used) rest).map (candidate :: ·)

def uniqueZipEntryNames (platform : Platform) (fuel : Nat) (names : List Text) : Option (List Text) :=
  uniqueFrom platform fuel [] names

-- Lower-casing maps the tilde and the digits to themselves, so that it leaves
-- a numbered ending where it is.
def Documented (platform : Platform) : Prop :=
  ∀ front copy, ∃ lowered, platform.lower (front++suffix copy) = lowered++suffix copy

structure NameArray where
  names : List Text
  short : names.length < 4294967296

structure Unique (platform : Platform) (names result : List Text) : Prop where
  length : result.length = names.length
  distinct : (result.map platform.lower).Nodup
  nonempty : ∀ name ∈ result, name ≠ []
  bounded : ∀ name ∈ result, utf8Length name ≤ 240
  clean : ∀ name ∈ result, ∀ c ∈ name, replaced c = false
  kept : ∀ front value back, names = front++value :: back →
    platform.lower (baseName platform value) ∉ (result.take front.length).map platform.lower →
    result[front.length]? = some (baseName platform value)

section
variable {text : Text}

theorem characters_units (mem : character ∈ characters text) : character ⊆ text := by
  induction text using characters.induct with
  | case1 => cases mem
  | case2 =>
    rw [characters,mem_singleton] at mem
    rw [mem]
    exact Subset.refl _
  | case3 _ _ _ pair ih =>
    rw [characters,if_pos pair] at mem
    rcases mem_cons.mp mem with rfl | deeper
    · simp
    exact fun unit inside => mem_cons_of_mem _ (mem_cons_of_mem _ (ih deeper inside))
  | case4 _ _ _ lone ih =>
    rw [characters,if_neg lone] at mem
    rcases mem_cons.mp mem with rfl | deeper
    · simp
    exact fun unit inside => mem_cons_of_mem _ (ih deeper inside)

theorem truncateFrom_bytes (small : utf8Length result ≤ maximumBytes) (rest : List Text) :
    utf8Length (truncateFrom maximumBytes result rest) ≤ maximumBytes := by
  induction rest generalizing result with
  | nil => exact small
  | cons character rest ih =>
    unfold truncateFrom
    split
    · exact small
    rename_i fits
    exact ih (Nat.not_lt.mp fits)

theorem truncateUtf8_bytes (value : Text) (maximumBytes : Nat) : utf8Length (truncateUtf8 value maximumBytes) ≤ maximumBytes :=
  truncateFrom_bytes (Nat.zero_le _) _

theorem truncateFrom_units (rest : List Text) (mem : c ∈ truncateFrom maximumBytes result rest) : c ∈ result ∨ ∃ character ∈ rest, c ∈ character := by
  induction rest generalizing result with
  | nil => exact .inl mem
  | cons character _ ih =>
    unfold truncateFrom at mem
    split at mem
    · exact .inl mem
    rcases ih mem with inside | ⟨other,there,inside⟩
    · rcases mem_append.mp inside with before | here
      · exact .inl before
      · exact .inr ⟨character,mem_cons_self,here⟩
    exact .inr ⟨other,mem_cons_of_mem _ there,inside⟩

theorem truncateUtf8_units (mem : c ∈ truncateUtf8 value maximumBytes) : c ∈ value := by
  rcases truncateFrom_units _ mem with none_ | ⟨character,there,inside⟩
  · cases none_
  exact characters_units there inside

theorem characters_basic (basic : Basic text) : characters text = text.map fun c => [c] := by
  induction text using characters.induct with
  | case1 | case2 c => rfl
  | case3 c _ _ pair =>
    have single := (basic_surrogates (basic c mem_cons_self)).2
    rw [single,Bool.false_and] at pair
    cases pair
  | case4 _ _ _ lone ih =>
    rw [characters,if_neg lone,ih fun unit mem => basic unit (mem_cons_of_mem _ mem),map_cons,map_cons,map_cons]

theorem truncateFrom_basic (basic : Basic (result++rest)) (small : result.length ≤ maximumBytes) :
    truncateFrom maximumBytes result (rest.map fun c => [c]) = result++rest.take (maximumBytes - result.length) := by
  induction rest generalizing result with
  | nil => simp [truncateFrom]
  | cons c _ ih =>
    have next : Basic (result++[c]) := fun unit mem => basic unit (by
      rcases mem_append.mp mem with front | back
      · exact mem_append_left _ front
      exact mem_append_right _ (mem_singleton.mp back ▸ mem_cons_self))
    have bytes : utf8Length (result++[c]) = result.length + 1 := by
      rw [utf8Length_basic next]
      simp
    rw [map_cons,truncateFrom,bytes]
    split
    · have full : maximumBytes - result.length = 0 := by omega
      rw [full,take_zero,append_nil]
    have room : maximumBytes - result.length = maximumBytes - (result++[c]).length + 1 := by
      rw [length_append,length_singleton]
      omega
    rw [ih (by simpa using basic) (by rw [length_append,length_singleton]; omega),room,take_succ_cons,append_assoc]
    rfl

theorem truncateUtf8_basic (basic : Basic text) : truncateUtf8 text maximumBytes = text.take maximumBytes := by
  have whole : truncateFrom maximumBytes [] (text.map fun c => [c]) = []++text.take (maximumBytes - 0) :=
    truncateFrom_basic basic (Nat.zero_le _)
  rw [truncateUtf8,characters_basic basic,whole]
  simp

def Clean (text : Text) : Prop := ∀ c ∈ text, replaced c = false

theorem orFile_clean (clean : Clean text) : Clean (orFile text) := by
  unfold orFile
  split
  · intro c mem
    have letters : (file.all fun c => !replaced c) := by decide
    simpa using all_eq_true.mp letters c mem
  exact clean

theorem orFile_nonempty (text : Text) : orFile text ≠ [] := by
  unfold orFile
  split
  · decide
  assumption

theorem safeZipName_clean (platform : Platform) (name : Text) : Clean (safeZipName platform name) := by
  apply orFile_clean
  intro c mem
  obtain ⟨d,_,rfl⟩ := mem_map.mp mem
  split
  · decide
  rename_i plain
  simpa using plain

theorem truncateUtf8_clean (clean : Clean value) : Clean (truncateUtf8 value maximumBytes) :=
  fun c mem => clean c (truncateUtf8_units mem)

theorem baseName_clean (platform : Platform) (value : Text) : Clean (baseName platform value) :=
  orFile_clean (truncateUtf8_clean (safeZipName_clean platform value))

theorem baseName_bytes (platform : Platform) (value : Text) : utf8Length (baseName platform value) ≤ 240 := by
  unfold baseName orFile
  split
  · decide
  exact truncateUtf8_bytes _ _

theorem digit_toNat (small : d < 10) : (digit d).toNat = 48 + d := by
  simp only [digit,UInt16.toNat_ofNat']
  omega

theorem decimal_clean (copy : Nat) : Clean (decimal copy) ∧ (0x7E : UInt16) ∉ decimal copy := by
  constructor
  · intro c mem
    obtain ⟨d,_,rfl⟩ := decimal_digits mem
    interval_cases d <;> rfl
  intro mem
  obtain ⟨d,small,same⟩ := decimal_digits mem
  have number := congrArg UInt16.toNat same
  rw [digit_toNat small] at number
  have tilde : (0x7E : UInt16).toNat = 126 := rfl
  omega

theorem suffix_clean (copy : Nat) : Clean (suffix copy) := by
  intro c mem
  rcases mem_cons.mp mem with rfl | deeper
  · rfl
  exact (decimal_clean copy).1 c deeper

theorem copyName_clean (clean : Clean base) : Clean (copyName base copy) := by
  intro c mem
  rcases mem_append.mp mem with front | back
  · exact truncateUtf8_clean clean c front
  exact suffix_clean copy c back

theorem copyName_bytes (base : Text) (small : copy < 10^200) : utf8Length (copyName base copy) ≤ 240 := by
  have digits := decimal_length_le (by decide : 0 < 200) small
  have basic : Basic (suffix copy) := by
    intro c mem
    rcases mem_cons.mp mem with rfl | deeper
    · decide
    exact decimal_basic copy c deeper
  have length : utf8Length (suffix copy) = (decimal copy).length + 1 := by
    rw [utf8Length_basic basic]
    rfl
  have front := truncateUtf8_bytes base (240 - utf8Length (suffix copy))
  have whole := utf8Length_append (truncateUtf8 base (240 - utf8Length (suffix copy))) (suffix copy)
  unfold copyName
  omega

theorem suffix_inj (same : left++suffix first = right++suffix second) : first = second := by
  have behind (front : Text) (copy : Nat) : (front++suffix copy).reverse.takeWhile (fun c => c != 0x7E) = (decimal copy).reverse := by
    rw [suffix,reverse_append,reverse_cons,append_assoc,takeWhile_append_of_pos]
    · simp
    · intro c mem
      have plain : c ≠ 0x7E := fun tilde => (decimal_clean copy).2 (tilde ▸ mem_reverse.mp mem)
      simpa using plain
  have digits : decimal first = decimal second := by
    rw [←reverse_inj,←behind left first,←behind right second,same]
  rw [←numeral_decimal first,←numeral_decimal second,digits]

theorem copyName_distinct (documented : Documented platform) (base : Text) : Distinct platform.lower (copyName base) := by
  intro first second same
  obtain ⟨_,before⟩ := documented (truncateUtf8 base (240 - utf8Length (suffix first))) first
  obtain ⟨_,after⟩ := documented (truncateUtf8 base (240 - utf8Length (suffix second))) second
  exact suffix_inj (before.symm.trans (same.trans after))
end

structure Chosen (platform : Platform) (used : List Text) (value candidate : Text) : Prop where
  free : platform.lower candidate ∉ used
  nonempty : candidate ≠ []
  bounded : utf8Length candidate ≤ 240
  clean : Clean candidate
  kept : platform.lower (baseName platform value) ∉ used → candidate = baseName platform value

structure UniqueFrom (platform : Platform) (used names result : List Text) : Prop where
  length : result.length = names.length
  distinct : (result.map platform.lower).Nodup
  apart : ∀ name ∈ result, platform.lower name ∉ used
  nonempty : ∀ name ∈ result, name ≠ []
  bounded : ∀ name ∈ result, utf8Length name ≤ 240
  clean : ∀ name ∈ result, Clean name
  kept : ∀ front value back, names = front++value :: back → platform.lower (baseName platform value) ∉ used →
    platform.lower (baseName platform value) ∉ (result.take front.length).map platform.lower →
    result[front.length]? = some (baseName platform value)

section

theorem search_chosen (documented : Documented platform) (short : used.length < 4294967296) (enough : used.length + 2 ≤ fuel) :
    ∃ candidate, search platform.lower used (copyName (baseName platform value)) fuel 2 (baseName platform value) = some candidate ∧
      Chosen platform used value candidate := by
  have distinct := copyName_distinct documented (baseName platform value)
  have first : ∃ candidate, search platform.lower used (copyName (baseName platform value)) (used.length + 2) 2
      (baseName platform value) = some candidate := search_total distinct (Nat.le_refl _)
  obtain ⟨candidate,found⟩ := first
  refine ⟨candidate,search_mono found enough,search_free found,?_,?_,?_,?_⟩
  · rcases search_among found with rfl | ⟨copy,_,rfl⟩
    · exact orFile_nonempty _
    · simp [copyName,suffix]
  · rcases search_among found with rfl | ⟨copy,below,rfl⟩
    · exact baseName_bytes platform value
    · have room : 4294967296 + 4 < 10^200 := by norm_num
      exact copyName_bytes _ (by omega)
  · rcases search_among found with rfl | ⟨copy,_,rfl⟩
    · exact baseName_clean platform value
    · exact copyName_clean (baseName_clean platform value)
  intro unused
  rw [search_unused unused] at found
  exact (Option.some.inj found).symm

theorem UniqueFrom.nil : UniqueFrom platform used [] [] := by
  refine ⟨rfl,nodup_nil,nofun,nofun,nofun,nofun,?_⟩
  intro front value back split
  simp at split

theorem UniqueFrom.cons (chosen : Chosen platform used value candidate) (later : UniqueFrom platform (platform.lower candidate :: used) names result) :
    UniqueFrom platform used (value :: names) (candidate :: result) := by
  have each {property : Text → Prop} (here : property candidate) (rest : ∀ name ∈ result, property name) : ∀ name ∈ candidate :: result, property name := by
    intro name mem
    rcases mem_cons.mp mem with rfl | deeper
    · exact here
    exact rest name deeper
  refine ⟨?_,?_,?_,each chosen.nonempty later.nonempty,each chosen.bounded later.bounded,each chosen.clean later.clean,?_⟩
  · rw [length_cons,length_cons,later.length]
  · rw [map_cons,nodup_cons]
    refine ⟨fun mem => ?_,later.distinct⟩
    obtain ⟨name,there,same⟩ := mem_map.mp mem
    exact later.apart name there (same ▸ mem_cons_self)
  · exact each chosen.free fun name there before => later.apart name there (mem_cons_of_mem _ before)
  intro front other back split unused fresh
  cases front with
  | nil =>
    cases split
    rw [chosen.kept unused]
    rfl
  | cons _ front =>
    obtain ⟨rfl,rest⟩ := List.cons.inj split
    rw [length_cons,take_succ_cons,map_cons,mem_cons,not_or] at fresh
    exact later.kept front other back rest (by rw [mem_cons,not_or]; exact ⟨fresh.1,unused⟩) fresh.2

theorem uniqueFrom_total (documented : Documented platform) (short : used.length + names.length < 4294967296) (enough : used.length + names.length + 2 ≤ fuel) :
    ∃ result, uniqueFrom platform fuel used names = some result ∧ UniqueFrom platform used names result := by
  induction names generalizing used with
  | nil => exact ⟨[],rfl,.nil⟩
  | cons value _ ih =>
    rw [length_cons] at short enough
    have first : ∃ candidate, search platform.lower used (copyName (baseName platform value)) fuel 2 (baseName platform value) =
        some candidate ∧ Chosen platform used value candidate := search_chosen documented (by omega) (by omega)
    obtain ⟨candidate,found,chosen⟩ := first
    obtain ⟨result,ran,later⟩ := @ih (platform.lower candidate :: used) (by rw [length_cons]; omega) (by rw [length_cons]; omega)
    refine ⟨candidate :: result,?_,.cons chosen later⟩
    rw [uniqueFrom,found]
    dsimp only
    rw [ran]
    rfl

theorem uniqueFrom_mono (ran : uniqueFrom platform fuel used names = some result) (more : fuel ≤ wider) :
    uniqueFrom platform wider used names = some result := by
  induction names generalizing used result with
  | nil => exact ran
  | cons value rest ih =>
    rw [uniqueFrom] at ran ⊢
    split at ran
    · cases ran
    rename_i candidate found
    rw [search_mono found more]
    dsimp only
    obtain ⟨_,deeper,rfl⟩ := Option.map_eq_some_iff.mp ran
    rw [ih deeper]
    rfl

theorem uniqueFrom_among (ran : uniqueFrom platform fuel used names = some result) : ∀ name ∈ result, ∃ value ∈ names,
    name = baseName platform value ∨ ∃ copy, copy < 2 + fuel ∧ name = copyName (baseName platform value) copy := by
  induction names generalizing used result with
  | nil =>
    cases ran
    exact forall_mem_nil _
  | cons value rest ih =>
    rw [uniqueFrom] at ran
    split at ran
    · cases ran
    rename_i candidate found
    obtain ⟨_,deeper,rfl⟩ := Option.map_eq_some_iff.mp ran
    refine forall_mem_cons.mpr ⟨⟨value,mem_cons_self,search_among found⟩,fun name mem => ?_⟩
    obtain ⟨other,there,shape⟩ := ih deeper name mem
    exact ⟨other,mem_cons_of_mem _ there,shape⟩
end

-- For every array of names the loops end, with names that differ even in lower case, fit into 240 bytes and hold no
-- replaced character; a name whose own form is unused keeps it.
theorem uniqueZipEntryNames_unique (platform : Platform) (documented : Documented platform) (array : NameArray) :
    ∃ result, (∀ fuel, array.names.length + 2 ≤ fuel → uniqueZipEntryNames platform fuel array.names = some result) ∧ Unique platform array.names result := by
  have short := array.short
  have whole : ∃ result, uniqueFrom platform (array.names.length + 2) [] array.names = some result ∧ UniqueFrom platform [] array.names result :=
    uniqueFrom_total documented (by rw [length_nil]; omega) (by rw [length_nil]; omega)
  obtain ⟨result,ran,unique⟩ := whole
  refine ⟨result,fun fuel more => uniqueFrom_mono ran more,unique.length,unique.distinct,unique.nonempty,unique.bounded,unique.clean,?_⟩
  intro front value back split fresh
  exact unique.kept front value back split not_mem_nil fresh

-- Texts of Basic Latin, on which the tables do nothing but map A-Z to a-z.
def basicLatin : Platform where
  normalize text := text
  lower text := text.map fun c => if 0x41 ≤ c ∧ c ≤ 0x5A then c + 0x20 else c

theorem basicLatin_documented : Documented basicLatin := by
  intro front copy
  refine ⟨basicLatin.lower front,?_⟩
  have kept : basicLatin.lower (suffix copy) = suffix copy := by
    refine (map_congr_left (g:=id) fun c mem => ?_).trans (map_id _)
    rcases mem_cons.mp mem with rfl | deeper
    · rfl
    obtain ⟨d,_,rfl⟩ := decimal_digits deeper
    interval_cases d <;> rfl
  have joined : basicLatin.lower (front++suffix copy) = basicLatin.lower front++basicLatin.lower (suffix copy) := map_append
  rw [joined,kept]

theorem uniqueZipEntryNames_unique_example :
    ∃ result, (∀ fuel, 4 ≤ fuel → uniqueZipEntryNames basicLatin fuel [ascii "Map.pdf",ascii "map.PDF"] = some result) ∧
      Unique basicLatin [ascii "Map.pdf",ascii "map.PDF"] result :=
  uniqueZipEntryNames_unique basicLatin basicLatin_documented ⟨[ascii "Map.pdf",ascii "map.PDF"],by decide⟩

example : uniqueZipEntryNames basicLatin 4 [ascii "Map.pdf",ascii "map.PDF"] = some [ascii "Map.pdf",ascii "map.PDF~2"] := by
  decide +kernel
end LedgeTopOps.ZipNames
