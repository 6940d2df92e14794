import Mathlib.Data.List.Basic

namespace LedgeTopOps.JsonTree

-- Well-formed UTF-16 text as its scalar values.
abbrev Text := List Char

-- The number of UTF-16 units, which is what string lengths are measured in.
def units : Text → Nat
  | [] => 0
  | c :: rest => (if c.toNat < 65536 then 1 else 2) + units rest

inductive Json where
  | null
  | bool (value : Bool)
  | number (value : Int)
  | string (value : Text)
  | array (items : List Json)
  | object (fields : List (Text × Json))

-- The characters that are safe inside HTML stand for themselves, six have a short escape, and
-- every other UTF-16 unit is written \uXXXX.
def unsafeInside : List Char := ['"','&','\'','+','<','>','\\',Char.ofNat 96]
def plain (c : Char) : Bool := decide (32 ≤ c.toNat) && decide (c.toNat < 127) && !unsafeInside.contains c

def escaped (c : Char) : Nat :=
  if plain c then 1 else
  if [8,9,10,12,13,92].contains c.toNat then 2 else
  if c.toNat < 65536 then 6 else 12

def quoted (text : Text) : Nat := text.foldl (fun bytes c => bytes + escaped c) 2
def digits (value : Int) : Nat := (Nat.toDigits 10 value.natAbs).length + if value < 0 then 1 else 0

mutual
def size : Json → Nat
  | .null => 4
  | .bool value => if value then 4 else 5
  | .number value => digits value
  | .string value => quoted value
  | .array items => 2 + (items.length-1) + sizeItems items
  | .object fields => 2 + (fields.length-1) + sizeFields fields

def sizeItems : List Json → Nat
  | [] => 0
  | item :: rest => size item + sizeItems rest

def sizeFields : List (Text × Json) → Nat
  | [] => 0
  | (name,value) :: rest => quoted name + 1 + size value + sizeFields rest
end

-- No object of the tree names a property twice.
mutual
def noDuplicates : Json → Bool
  | .array items => noDuplicatesItems items
  | .object fields => decide (fields.map Prod.fst).Nodup && noDuplicatesFields fields
  | _ => true

def noDuplicatesItems : List Json → Bool
  | [] => true
  | item :: rest => noDuplicates item && noDuplicatesItems rest

def noDuplicatesFields : List (Text × Json) → Bool
  | [] => true
  | (_,value) :: rest => noDuplicates value && noDuplicatesFields rest
end

def exact (names : List Text) : Json → Bool
  | .object fields => (fields.map Prod.fst).isPerm names
  | _ => false

def property (name : Text) : Json → Option Json
  | .object fields => fields.lookup name
  | _ => none

def Json.text : Json → Option Text
  | .string value => some value
  | _ => none

def Json.flag : Json → Option Bool
  | .bool value => some value
  | _ => none

def Json.int : Json → Option Int
  | .number value => some value
  | _ => none

def Json.textOrNull : Json → Option (Option Text)
  | .null => some none
  | .string value => some (some value)
  | _ => none

def Json.items : Json → Option (List Json)
  | .array items => some items
  | _ => none

theorem noDuplicatesItems_iff : noDuplicatesItems items ↔ ∀ item ∈ items, noDuplicates item := by
  induction items with
  | nil => simp [noDuplicatesItems]
  | cons _ _ ih => simp [noDuplicatesItems,ih]

theorem sizeFields_append : sizeFields (front++back) = sizeFields front + sizeFields back := by
  induction front with
  | nil => simp [sizeFields]
  | cons _ _ ih => simp only [List.cons_append,sizeFields,ih]; omega

theorem lookup_mem {fields : List (Text × Json)} (apart : (fields.map Prod.fst).Nodup) (mem : (name,value) ∈ fields) : fields.lookup name = some value := by
  induction fields with
  | nil => cases mem
  | cons field _ ih =>
    obtain ⟨head,_⟩ := field
    obtain ⟨absent,distinct⟩ := List.nodup_cons.mp apart
    rw [List.lookup_cons]
    rcases List.mem_cons.mp mem with first | deep
    · cases first; simp
    have different : (name == head) = false := by
      apply beq_eq_false_iff_ne.mpr
      intro same
      exact absent (List.mem_map.mpr ⟨_,deep,same⟩)
    simp only [different]
    exact ih distinct deep
end LedgeTopOps.JsonTree
