import Mathlib.Data.List.TakeWhile
import Mathlib.Data.Nat.Digits.Lemmas

namespace LedgeTopOps.JsonText
open List
open Bool (false_eq_true and_eq_true not_eq_true)

-- A string as its UTF-16 units, which is what its length counts.
abbrev Text := List UInt16

def ascii (text : String) : Text := text.toList.map fun c => UInt16.ofNat c.toNat

def high (c : UInt16) : Bool := decide (0xD800 ≤ c) && decide (c ≤ 0xDBFF)
def low (c : UInt16) : Bool := decide (0xDC00 ≤ c) && decide (c ≤ 0xDFFF)

def startsLow : Text → Bool
  | c :: _ => low c
  | [] => false

-- The white space and line terminators that trimming takes away and \s matches.
def blank (c : UInt16) : Bool :=
  (decide (0x09 ≤ c) && decide (c ≤ 0x0D)) || c == 0x20 || c == 0xA0 || c == 0x1680 ||
    (decide (0x2000 ≤ c) && decide (c ≤ 0x200A)) || c == 0x2028 || c == 0x2029 || c == 0x202F ||
    c == 0x205F || c == 0x3000 || c == 0xFEFF

def trim (text : Text) : Text := ((text.dropWhile blank).reverse.dropWhile blank).reverse

def digit (n : Nat) : UInt16 := UInt16.ofNat (48 + n)

def decimal (n : Nat) : Text := if n = 0 then [digit 0] else (Nat.digits 10 n).reverse.map digit

def numeral (text : Text) : Nat := Nat.ofDigits 10 (text.reverse.map fun c => c.toNat - 48)

def hexDigit (n : Nat) : UInt16 := if n < 10 then UInt16.ofNat (48 + n) else UInt16.ofNat (87 + n)

-- \uXXXX in lower-case hexadecimal digits.
def unicodeEscape (c : UInt16) : Text :=
  [0x5C,0x75,hexDigit (c.toNat / 4096),hexDigit (c.toNat / 256 % 16),hexDigit (c.toNat / 16 % 16),hexDigit (c.toNat % 16)]

def shortEscape (c : UInt16) : Option UInt16 :=
  if c = 0x22 then some 0x22 else
  if c = 0x5C then some 0x5C else
  if c = 0x08 then some 0x62 else
  if c = 0x09 then some 0x74 else
  if c = 0x0A then some 0x6E else
  if c = 0x0C then some 0x66 else
  if c = 0x0D then some 0x72 else none

def escapeUnit (c : UInt16) : Text :=
  if let some letter := shortEscape c then [0x5C,letter]
  else if c < 0x20 then unicodeEscape c else [c]

-- A surrogate is kept where it is one half of a pair; `paired` says that the
-- unit before was kept as a high half.
def escapeFrom : Bool → Text → Text
  | _,[] => []
  | paired,c :: rest =>
    if low c then (if paired then [c] else unicodeEscape c)++escapeFrom false rest
    else if high c then (if startsLow rest then [c] else unicodeEscape c)++escapeFrom (startsLow rest) rest
    else escapeUnit c++escapeFrom false rest

def quote (text : Text) : Text := [0x22]++escapeFrom false text++[0x22]

inductive Json where
  | number (value : Nat)
  | string (value : Text)
  | object (members : List (String × Json))

mutual
def stringify : Json → Text
  | .number value => decimal value
  | .string value => quote value
  | .object members => [0x7B]++stringifyMembers members++[0x7D]

def stringifyMembers : List (String × Json) → Text
  | [] => []
  | (name,value) :: [] => quote (ascii name)++[0x3A]++stringify value
  | (name,value) :: next :: rest =>
    quote (ascii name)++[0x3A]++stringify value++[0x2C]++stringifyMembers (next :: rest)
end

-- The bytes of a text in UTF-8. A pair of surrogates is four bytes, a lone one
-- is sent as the three bytes of U+FFFD.
def unitBytes (c : UInt16) : Nat := if c < 0x80 then 1 else if c < 0x800 then 2 else 3

def utf8From : Bool → Text → Nat
  | _,[] => 0
  | paired,c :: rest => (if low c && paired then 1 else unitBytes c) + utf8From (high c) rest

def utf8Length (text : Text) : Nat := utf8From false text

def transmitFrom : Bool → Text → Text
  | _,[] => []
  | paired,c :: rest =>
    if low c then (if paired then c else 0xFFFD) :: transmitFrom false rest
    else if high c then (if startsLow rest then c else 0xFFFD) :: transmitFrom (startsLow rest) rest
    else c :: transmitFrom false rest

def transmit (text : Text) : Text := transmitFrom false text

def wholeFrom : Bool → Text → Bool
  | paired,[] => !paired
  | paired,c :: rest =>
    if low c then paired && wholeFrom false rest
    else if high c then !paired && wholeFrom true rest
    else !paired && wholeFrom false rest

abbrev Whole (text : Text) : Prop := wholeFrom false text = true

def Plain (text : Text) : Prop := ∀ c ∈ text, 0x20 ≤ c ∧ c < 0x80 ∧ c ≠ 0x22 ∧ c ≠ 0x5C

theorem plain_unit {c : UInt16} (printed : 32 ≤ c.toNat) (basic : c.toNat < 128) (quoteless : c.toNat ≠ 34) (slashless : c.toNat ≠ 92) :
    0x20 ≤ c ∧ c < 0x80 ∧ c ≠ 0x22 ∧ c ≠ 0x5C :=
  ⟨UInt16.le_iff_toNat_le.mpr printed,UInt16.lt_iff_toNat_lt.mpr basic,fun same => quoteless (same ▸ rfl),fun same => slashless (same ▸ rfl)⟩

def Basic (text : Text) : Prop := ∀ c ∈ text, c < 0x80

theorem basic_single (basic : c < 0x80) : Basic [c] := by
  intro d mem
  rw [mem_singleton.mp mem]
  exact basic

theorem basic_surrogates (basic : c < 0x80) : low c = false ∧ high c = false := by
  simp only [low,high,Bool.and_eq_false_iff,decide_eq_false_iff_not,UInt16.le_iff_toNat_le,UInt16.lt_iff_toNat_lt] at basic ⊢
  have small : (0x80 : UInt16).toNat = 0x80 := rfl
  have first : (0xDC00 : UInt16).toNat = 0xDC00 := rfl
  have second : (0xD800 : UInt16).toNat = 0xD800 := rfl
  omega

theorem unitBytes_le : unitBytes c ≤ 3 := by
  unfold unitBytes
  split <;> (try split) <;> omega

theorem utf8From_le (text : Text) : utf8From paired text ≤ utf8Length text := by
  cases text with
  | nil => exact le_refl _
  | cons c =>
    have one : 1 ≤ unitBytes c := by unfold unitBytes; split <;> (try split) <;> omega
    simp only [utf8Length,utf8From,Bool.and_false,false_eq_true,if_false]
    split <;> omega

theorem utf8From_append (left right : Text) : utf8From paired (left++right) ≤ utf8From paired left + utf8Length right := by
  induction left generalizing paired with
  | nil => simpa [utf8From] using utf8From_le right
  | cons c rest ih =>
    have rest := @ih (high c)
    simp only [cons_append,utf8From]
    omega

theorem utf8Length_append (left right : Text) : utf8Length (left++right) ≤ utf8Length left + utf8Length right :=
  utf8From_append left right

theorem utf8From_le_length (text : Text) : utf8From paired text ≤ 3 * text.length := by
  induction text generalizing paired with
  | nil => exact le_refl _
  | cons c _ ih =>
    have step := @ih (high c)
    have unit := unitBytes_le (c:=c)
    simp only [utf8From,length_cons]
    split <;> omega

theorem utf8Length_basic (basic : Basic text) : utf8Length text = text.length := by
  have general : ∀ paired, utf8From paired text = text.length := by
    induction text with
    | nil => intro paired; rfl
    | cons c _ ih =>
      intro paired
      have here := basic c mem_cons_self
      have apart := basic_surrogates here
      simp only [utf8From,apart.1,Bool.false_and,false_eq_true,if_false,unitBytes,here,if_true,length_cons]
      rw [ih (fun d mem => basic d (mem_cons_of_mem _ mem))]
      omega
  exact general false

theorem hexDigit_basic (small : n < 16) : hexDigit n < 0x80 := by
  unfold hexDigit
  split <;> (rw [UInt16.lt_iff_toNat_lt]; simp only [UInt16.toNat_ofNat']; have top : (0x80 : UInt16).toNat = 0x80 := rfl; omega)

theorem unicodeEscape_basic (c : UInt16) : Basic (unicodeEscape c) := by
  have bound := c.toNat_lt
  intro d mem
  simp only [unicodeEscape,mem_cons,not_mem_nil,or_false] at mem
  rcases mem with rfl | rfl | rfl | rfl | rfl | rfl
  · decide
  · decide
  all_goals exact hexDigit_basic (by omega)

theorem shortEscape_basic (found : shortEscape c = some letter) : letter < 0x80 := by
  unfold shortEscape at found
  split at found
  · cases found; decide
  split at found
  · cases found; decide
  split at found
  · cases found; decide
  split at found
  · cases found; decide
  split at found
  · cases found; decide
  split at found
  · cases found; decide
  split at found
  · cases found; decide
  cases found

theorem escapeUnit_cases (c : UInt16) : escapeUnit c = [c] ∨ (Basic (escapeUnit c) ∧ (escapeUnit c).length ≤ 6) := by
  unfold escapeUnit
  split
  · next letter found =>
    refine .inr ⟨?_,by simp⟩
    intro d mem
    simp only [mem_cons,not_mem_nil,or_false] at mem
    rcases mem with rfl | rfl
    · decide
    exact shortEscape_basic found
  split
  · exact .inr ⟨unicodeEscape_basic c,by simp [unicodeEscape]⟩
  · exact .inl rfl

theorem escapeUnit_bytes (c : UInt16) : utf8Length (escapeUnit c) ≤ 6 := by
  rcases escapeUnit_cases c with same | ⟨basic,short⟩
  · rw [same]
    exact (utf8From_le_length [c]).trans (by simp)
  rw [utf8Length_basic basic]
  exact short

theorem unicodeEscape_bytes (c : UInt16) : utf8Length (unicodeEscape c) ≤ 6 := by
  rw [utf8Length_basic (unicodeEscape_basic c)]
  exact le_of_eq rfl

theorem single_bytes (c : UInt16) : utf8Length [c] ≤ 6 := (utf8From_le_length [c]).trans (by simp)

theorem escapeFrom_bytes (text : Text) : utf8Length (escapeFrom paired text) ≤ 6 * text.length := by
  induction text generalizing paired with
  | nil => exact le_refl _
  | cons c rest ih =>
    have written : ∀ front next, utf8Length front ≤ 6 → utf8Length (front++escapeFrom next rest) ≤ 6 * (c :: rest).length := by
      intro front next small
      have joined := utf8Length_append front (escapeFrom next rest)
      have later := @ih next
      simp only [length_cons]
      omega
    simp only [escapeFrom]
    split
    · exact written _ _ (by split; exacts [single_bytes c,unicodeEscape_bytes c])
    split
    · exact written _ _ (by split; exacts [single_bytes c,unicodeEscape_bytes c])
    exact written _ _ (escapeUnit_bytes c)

theorem escapeFrom_plain (plain : Plain text) : escapeFrom false text = text := by
  induction text with
  | nil => rfl
  | cons c _ ih =>
    obtain ⟨printed,basic,quoteless,slashless⟩ := plain c mem_cons_self
    have apart := basic_surrogates basic
    have kept : escapeUnit c = [c] := by
      have short : shortEscape c = none := by
        have least : (0x20 : UInt16).toNat ≤ c.toNat := UInt16.le_iff_toNat_le.mp printed
        have other : ∀ d : UInt16, d.toNat < 32 → c ≠ d := by
          rintro d small rfl
          have top : (0x20 : UInt16).toNat = 32 := rfl
          omega
        simp only [shortEscape,quoteless,slashless,other 0x08 (by decide),other 0x09 (by decide),other 0x0A (by decide),
          other 0x0C (by decide),other 0x0D (by decide),if_false]
      simp only [escapeUnit,short]
      exact if_neg (by rw [UInt16.not_lt]; exact printed)
    simp only [escapeFrom,apart.1,apart.2,false_eq_true,if_false,kept, ih (fun d mem => plain d (mem_cons_of_mem _ mem)),singleton_append]

theorem Plain.basic (plain : Plain text) : Basic text := fun c mem => (plain c mem).2.1

theorem quote_bytes (text : Text) : utf8Length (quote text) ≤ 2 + 6 * text.length := by
  have outer := utf8Length_append ([0x22]++escapeFrom false text) [0x22]
  have inner := utf8Length_append [0x22] (escapeFrom false text)
  have body : utf8Length (escapeFrom false text) ≤ 6 * text.length := escapeFrom_bytes text
  have mark : utf8Length [0x22] = 1 := by decide
  unfold quote
  omega

theorem quote_plain_bytes (plain : Plain text) : utf8Length (quote text) ≤ 2 + text.length := by
  have outer := utf8Length_append ([0x22]++escapeFrom false text) [0x22]
  have inner := utf8Length_append [0x22] (escapeFrom false text)
  have mark : utf8Length [0x22] = 1 := by decide
  have body : utf8Length (escapeFrom false text) = text.length := by
    rw [escapeFrom_plain plain,utf8Length_basic plain.basic]
  unfold quote
  omega

theorem whole_append_basic (basic : Basic front) (rest : Text) : wholeFrom false (front++rest) = wholeFrom false rest := by
  induction front with
  | nil => rfl
  | cons c _ ih =>
    have apart := basic_surrogates (basic c mem_cons_self)
    simp only [cons_append,wholeFrom,apart.1,apart.2,false_eq_true,if_false,Bool.not_false,Bool.true_and]
    exact ih fun d mem => basic d (mem_cons_of_mem _ mem)

theorem whole_append (front : Text) (whole : wholeFrom paired front = true) (rest : Text) : wholeFrom paired (front++rest) = wholeFrom false rest := by
  induction front generalizing paired with
  | nil =>
    have open_ : paired = false := by simpa [wholeFrom] using whole
    rw [open_]
    rfl
  | cons c _ ih =>
    simp only [wholeFrom] at whole
    simp only [cons_append,wholeFrom]
    by_cases lower : low c = true
    · simp only [lower,if_true,and_eq_true] at whole ⊢
      simp only [whole.1,Bool.true_and]
      exact ih whole.2
    simp only [lower,false_eq_true,if_false] at whole ⊢
    by_cases upper : high c = true
    · simp only [upper,if_true,and_eq_true] at whole ⊢
      simp only [whole.1,Bool.true_and]
      exact ih whole.2
    simp only [upper,false_eq_true,if_false,and_eq_true] at whole ⊢
    simp only [whole.1,Bool.true_and]
    exact ih whole.2

theorem Whole.append (front : Whole left) (back : Whole right) : Whole (left++right) := by
  rw [Whole,whole_append left front]
  exact back

theorem Basic.whole (basic : Basic text) : Whole text := by
  have kept := whole_append_basic basic []
  rw [append_nil] at kept
  rw [Whole,kept]
  rfl

theorem single_whole (c : UInt16) (basic : c < 0x80) : Whole [c] := (basic_single basic).whole

theorem escapeUnit_whole (lower : low c = false) (upper : high c = false) (rest : Text) : wholeFrom false (escapeUnit c++rest) = wholeFrom false rest := by
  rcases escapeUnit_cases c with same | ⟨basic,_⟩
  · simp only [same,singleton_append,wholeFrom,lower,upper,false_eq_true,if_false,Bool.not_false,Bool.true_and]
  exact whole_append_basic basic rest

theorem escapeFrom_whole (text : Text) (half : paired = true → startsLow text = true) : wholeFrom paired (escapeFrom paired text) = true := by
  induction text generalizing paired with
  | nil => cases paired with
    | false => rfl
    | true => exact absurd (half rfl) Bool.false_ne_true
  | cons c rest ih =>
    simp only [escapeFrom]
    by_cases lower : low c = true
    · simp only [lower,if_true]
      cases paired with
      | false =>
        simp only [false_eq_true,if_false]
        rw [whole_append_basic (unicodeEscape_basic c)]
        exact ih nofun
      | true =>
        simp only [if_true,singleton_append,wholeFrom,lower,Bool.true_and]
        exact ih nofun
    cases paired with
    | true => exact absurd (half rfl) lower
    | false =>
      simp only [lower,false_eq_true,if_false]
      by_cases upper : high c = true
      · simp only [upper,if_true]
        cases follows : startsLow rest with
        | true =>
          simp only [if_true,singleton_append,wholeFrom,lower,upper,false_eq_true,if_false,Bool.not_false,Bool.true_and]
          exact ih fun _ => follows
        | false =>
          simp only [false_eq_true,if_false]
          rw [whole_append_basic (unicodeEscape_basic c)]
          exact ih nofun
      simp only [upper,false_eq_true,if_false]
      rw [escapeUnit_whole (not_eq_true _ ▸ lower) (not_eq_true _ ▸ upper)]
      exact ih nofun

theorem quote_whole (text : Text) : Whole (quote text) :=
  ((single_whole 0x22 (by decide)).append (escapeFrom_whole text nofun)).append (single_whole _ (by decide))

theorem digit_basic (small : n < 10) : digit n < 0x80 := by
  rw [UInt16.lt_iff_toNat_lt,digit,UInt16.toNat_ofNat']
  have top : (0x80 : UInt16).toNat = 0x80 := rfl
  omega

theorem decimal_digits (mem : c ∈ decimal n) : ∃ d, d < 10 ∧ c = digit d := by
  unfold decimal at mem
  split at mem
  · exact ⟨0,by decide,mem_singleton.mp mem⟩
  obtain ⟨d,among,rfl⟩ := mem_map.mp mem
  exact ⟨d,Nat.digits_lt_base (by decide) (mem_reverse.mp among),rfl⟩

theorem decimal_basic (n : Nat) : Basic (decimal n) := by
  intro c mem
  obtain ⟨d,small,rfl⟩ := decimal_digits mem
  exact digit_basic small

theorem decimal_length (positive : n ≠ 0) : (decimal n).length = (Nat.digits 10 n).length := by
  simp only [decimal,positive,if_false,length_map,length_reverse]

theorem decimal_length_le (some_ : 0 < k) (small : n < 10^k) : (decimal n).length ≤ k := by
  by_cases zero : n = 0
  · simp only [decimal,zero,if_true,length_singleton]
    exact some_
  rw [decimal_length zero]
  exact (Nat.digits_length_le_iff (by decide) n).mpr small

theorem decimal_length_iff : (decimal n).length = k+2 ↔ 10^(k+1) ≤ n ∧ n < 10^(k+2) := by
  by_cases zero : n = 0
  · have positive : 0 < 10^(k+1) := Nat.pow_pos (by decide)
    simp only [decimal,zero,if_true,length_singleton]
    omega
  rw [decimal_length zero]
  have most := Nat.digits_length_le_iff (b:=10) (by decide) n (k:=k+2)
  have least := Nat.lt_digits_length_iff (b:=10) (by decide) n (k:=k+1)
  omega

theorem numeral_decimal (n : Nat) : numeral (decimal n) = n := by
  unfold decimal numeral
  split
  · next zero => rw [zero]; rfl
  have back : ((Nat.digits 10 n).reverse.map digit).reverse.map (fun c => c.toNat - 48) = Nat.digits 10 n := by
    rw [←map_reverse,reverse_reverse,map_map]
    conv => rhs; rw [←map_id (Nat.digits 10 n)]
    refine map_congr_left fun d mem => ?_
    have small := Nat.digits_lt_base (b:=10) (by decide) mem
    simp only [Function.comp,digit,UInt16.toNat_ofNat',id]
    omega
  rw [back,Nat.ofDigits_digits]

mutual
theorem stringify_whole (value : Json) : Whole (stringify value) := by
  cases value with
  | number value => exact (decimal_basic value).whole
  | string value => exact quote_whole value
  | object members =>
    exact ((single_whole 0x7B (by decide)).append (stringifyMembers_whole members)).append (single_whole _ (by decide))

theorem stringifyMembers_whole (members : List (String × Json)) : Whole (stringifyMembers members) := by
  have colon : Whole [0x3A] := single_whole 0x3A (by decide)
  match members with
  | [] => rfl
  | [(name,value)] => exact ((quote_whole _).append colon).append (stringify_whole value)
  | (name,value) :: next :: rest =>
    exact ((((quote_whole _).append colon).append (stringify_whole value)).append (single_whole 0x2C (by decide))).append
      (stringifyMembers_whole (next :: rest))
end

theorem transmitFrom_whole (text : Text) (whole : wholeFrom paired text = true) : transmitFrom paired text = text := by
  induction text generalizing paired with
  | nil => rfl
  | cons c rest ih =>
    simp only [wholeFrom] at whole
    simp only [transmitFrom]
    by_cases lower : low c = true
    · simp only [lower,if_true,and_eq_true] at whole ⊢
      rw [whole.1,if_pos rfl,ih whole.2]
    simp only [lower,false_eq_true,if_false] at whole ⊢
    by_cases upper : high c = true
    · simp only [upper,if_true,and_eq_true] at whole ⊢
      have follows : startsLow rest = true := by
        cases rest with
        | nil => exact absurd whole.2 Bool.false_ne_true
        | cons d =>
          by_contra other
          have inside := whole.2
          have apart : low d = false := not_eq_true _ ▸ other
          simp only [wholeFrom,apart,false_eq_true,if_false,Bool.not_true,Bool.false_and,ite_self] at inside
      rw [follows,if_pos rfl,ih whole.2]
    simp only [upper,false_eq_true,if_false,and_eq_true] at whole ⊢
    rw [ih whole.2]

theorem transmit_stringify (value : Json) : transmit (stringify value) = stringify value :=
  transmitFrom_whole _ (stringify_whole value)

-- The bytes of an object are at most those of its names and values, with two
-- more for each member and two for the braces.
def memberBytes : List (String × Json) → Nat
  | [] => 0
  | (name,value) :: rest => utf8Length (quote (ascii name)) + utf8Length (stringify value) + 2 + memberBytes rest

theorem stringifyMembers_bytes (members : List (String × Json)) : utf8Length (stringifyMembers members) ≤ memberBytes members := by
  have colon : utf8Length [0x3A] = 1 := by decide
  have comma : utf8Length [0x2C] = 1 := by decide
  match members with
  | [] => exact le_refl _
  | [(name,value)] =>
    have outer := utf8Length_append (quote (ascii name)++[0x3A]) (stringify value)
    have inner := utf8Length_append (quote (ascii name)) [0x3A]
    simp only [stringifyMembers,memberBytes]
    omega
  | (name,value) :: next :: rest =>
    have deeper := stringifyMembers_bytes (next :: rest)
    have last := utf8Length_append (quote (ascii name)++[0x3A]++stringify value++[0x2C]) (stringifyMembers (next :: rest))
    have third := utf8Length_append (quote (ascii name)++[0x3A]++stringify value) [0x2C]
    have outer := utf8Length_append (quote (ascii name)++[0x3A]) (stringify value)
    have inner := utf8Length_append (quote (ascii name)) [0x3A]
    rw [stringifyMembers,memberBytes]
    omega

theorem object_bytes (members : List (String × Json)) : utf8Length (stringify (.object members)) ≤ 2 + memberBytes members := by
  have outer := utf8Length_append ([0x7B]++stringifyMembers members) [0x7D]
  have inner := utf8Length_append [0x7B] (stringifyMembers members)
  have body := stringifyMembers_bytes members
  have left : utf8Length [0x7B] = 1 := by decide
  have right : utf8Length [0x7D] = 1 := by decide
  rw [stringify]
  omega

theorem string_bytes (text : Text) : utf8Length (stringify (.string text)) ≤ 2 + 6 * text.length := by
  exact quote_bytes text

theorem string_plain_bytes (plain : Plain text) : utf8Length (stringify (.string text)) ≤ 2 + text.length := by
  exact quote_plain_bytes plain

theorem trim_length_le (text : Text) : (trim text).length ≤ text.length := by
  have front := (dropWhile_suffix blank (l:=text)).length_le
  have back := (dropWhile_suffix blank (l:=(text.dropWhile blank).reverse)).length_le
  simp only [trim,length_reverse] at back ⊢
  omega

theorem trim_eq_nil : trim text = [] ↔ ∀ c ∈ text, blank c = true := by
  simp only [trim,reverse_eq_nil_iff,dropWhile_eq_nil_iff,mem_reverse]
  constructor
  · intro rest c mem
    by_contra solid
    have kept : text.dropWhile blank ≠ [] := fun empty => solid (dropWhile_eq_nil_iff.mp empty c mem)
    obtain ⟨d,tail,split⟩ := exists_cons_of_ne_nil kept
    have first : blank d = false := by
      have head := List.head?_dropWhile_not blank text
      rw [split] at head
      simpa using head
    have last := rest d (by rw [split]; exact mem_cons_self)
    rw [first] at last
    cases last
  exact fun all c mem => all c ((dropWhile_suffix blank).subset mem)

theorem trim_head (starts : trim text = c :: rest) : blank c = false := by
  have kept : c ∈ (text.dropWhile blank) := by
    have mem : c ∈ trim text := by rw [starts]; exact mem_cons_self
    exact mem_reverse.mp ((dropWhile_suffix blank).subset (mem_reverse.mp mem))
  obtain ⟨d,tail,split⟩ := exists_cons_of_ne_nil (ne_nil_of_mem kept)
  have first : blank d = false := by
    have head := List.head?_dropWhile_not blank text
    rw [split] at head
    simpa using head
  -- The first unit is taken away last, so that it would take every unit with it.
  obtain ⟨gone,whole⟩ := dropWhile_suffix blank (l:=(text.dropWhile blank).reverse)
  have order : text.dropWhile blank = trim text++gone.reverse := by
    rw [trim,←reverse_append,whole,reverse_reverse]
  rw [split,starts] at order
  simp only [cons_append,List.cons.injEq] at order
  rw [←order.1]
  exact first

theorem trim_cut : trim ((trim text).take (k+1)) = [] ↔ trim text = [] := by
  constructor
  · intro empty
    cases starts : trim text with
    | nil => rfl
    | cons c =>
      rw [starts,take_succ_cons] at empty
      have gone := trim_eq_nil.mp empty c mem_cons_self
      rw [trim_head starts] at gone
      cases gone
  intro empty
  rw [empty]
  rfl
end LedgeTopOps.JsonText
