import Mathlib.Data.List.Basic

namespace LedgeTopOps.LittleEndian

abbrev Bytes := List UInt8

def ofLe : Bytes → Nat
  | [] => 0
  | byte :: rest => byte.toNat+256*ofLe rest

def slice (offset length : Nat) (items : List α) : List α := (items.drop offset).take length
end LedgeTopOps.LittleEndian
