import LedgeTopOps.JsonText

namespace LedgeTopOps.TextReplacing
open JsonText

-- The pieces of regular expressions that never have to give back what they
-- took: each takes a front of the text and leaves the rest.
abbrev Piece := Text → Option Text

def upperOf (c : UInt16) : UInt16 := if 0x61 ≤ c ∧ c ≤ 0x7A then c - 32 else c

-- A literal, and a literal where the case of letters does not matter.
def literal (expected : Text) : Piece := fun text =>
  if expected.isPrefixOf text then some (text.drop expected.length) else none

def anyCase (expected : Text) : Piece := fun text =>
  if (expected.map upperOf).isPrefixOf (text.map upperOf) then some (text.drop expected.length) else none

def one (allowed : UInt16 → Bool) : Piece
  | [] => none
  | c :: rest => if allowed c then some rest else none

def many (allowed : UInt16 → Bool) : Piece := fun text => some (text.dropWhile allowed)
def several (allowed : UInt16 → Bool) : Piece := fun text => (one allowed text).map (·.dropWhile allowed)
def maybe (allowed : UInt16 → Bool) : Piece := fun text => some ((one allowed text).getD text)
def after (first second : Piece) : Piece := fun text => (first text).bind second
def choice (pieces : List Piece) : Piece := fun text => pieces.findSome? fun piece => piece text

def word (c : UInt16) : Bool :=
  (decide (0x30 ≤ c) && decide (c ≤ 0x39)) || (decide (0x41 ≤ c) && decide (c ≤ 0x5A)) || c == 0x5F || (decide (0x61 ≤ c) && decide (c ≤ 0x7A))

-- A search decides at a place, from the unit before it and the text from it on,
-- whether an occurrence starts there: how long it is and what stands for it.
abbrev Search := Option UInt16 → Text → Option (Nat × Text)

def boundary (before : Option UInt16) : Bool := !before.any word

def replaceFrom (search : Search) : Nat → Option UInt16 → Text → Text
  | _,_,[] => []
  | skipped+1,_,c :: rest => replaceFrom search skipped (some c) rest
  | 0,before,c :: rest => (search before (c :: rest)).elim (c :: replaceFrom search 0 (some c) rest)
    fun found => found.2++replaceFrom search (found.1-1) (some c) rest

def replaceAll (search : Search) (text : Text) : Text := replaceFrom search 0 none text

def whole (piece : Piece) (replacement : Text) : Search := fun _ text =>
  (piece text).map fun rest => (text.length - rest.length,replacement)

def behind (group piece : Piece) (replacement : Text) : Search := fun _ text =>
  (group text).bind fun middle => (piece middle).map fun rest =>
    (text.length - rest.length,text.take (text.length - middle.length)++replacement)

def atBoundary (search : Search) : Search := fun before text => if boundary before then search before text else none
def either (first second : Search) : Search := fun before text => (first before text).orElse fun _ => second before text
end LedgeTopOps.TextReplacing
