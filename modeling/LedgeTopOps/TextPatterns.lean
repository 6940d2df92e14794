import Mathlib.Data.List.Basic

namespace LedgeTopOps.TextPatterns

-- Anchored regular expressions of a fixed shape: one character class for each
-- position, or one class repeated between two bounds.
def positional : List (Char → Bool) → List Char → Bool
  | [],[] => true
  | here :: classes,c :: rest => here c && positional classes rest
  | _,_ => false

def repeated (least most : Nat) (allowed : Char → Bool) (text : List Char) : Bool :=
  decide (least ≤ text.length) && decide (text.length ≤ most) && text.all allowed

def led (lead : List Char) (rest : List Char → Bool) (text : List Char) : Bool :=
  lead.isPrefixOf text && rest (text.drop lead.length)

def decimal (c : Char) : Bool := decide ('0' ≤ c) && decide (c ≤ '9')
def lowerLetter (c : Char) : Bool := decide ('a' ≤ c) && decide (c ≤ 'z')
def upperLetter (c : Char) : Bool := decide ('A' ≤ c) && decide (c ≤ 'Z')
def lowerHex (c : Char) : Bool := decimal c || (decide ('a' ≤ c) && decide (c ≤ 'f'))
def lowerAlphanumeric (c : Char) : Bool := decimal c || lowerLetter c
def alphanumeric (c : Char) : Bool := decimal c || lowerLetter c || upperLetter c
def exactly (expected c : Char) : Bool := c == expected
def among (choices : List Char) (c : Char) : Bool := choices.contains c

-- xxxxxxxx-xxxx-Vxxx-Rxxx-xxxxxxxxxxxx in lower-case hex, with the classes of
-- the version digit V and of the variant digit R as parameters.
def uuidShape (version variant : Char → Bool) : List (Char → Bool) :=
  let dash := exactly '-'
  List.replicate 8 lowerHex++[dash]++List.replicate 4 lowerHex++[dash] ++
    version :: List.replicate 3 lowerHex++[dash]++variant :: List.replicate 3 lowerHex++[dash] ++
    List.replicate 12 lowerHex

def uuid (version variant : Char → Bool) (text : List Char) : Bool := positional (uuidShape version variant) text

theorem repeated_length (matched : repeated least most allowed text) : least ≤ text.length ∧ text.length ≤ most := by
  simp only [repeated,Bool.and_eq_true,decide_eq_true_eq] at matched
  exact matched.1
end LedgeTopOps.TextPatterns
