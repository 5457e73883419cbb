import Mathlib.Logic.Basic

/-! # Strings of bytes

A `std::string` is its bytes.
-/
namespace NeuStack

abbrev Bytes := List UInt8

/-- The bytes of an ASCII string. -/
def ascii (s : String) : Bytes := s.toList.map fun c => UInt8.ofNat c.toNat

/-- `%u` and `%llu` of `printf`. -/
def decimal (n : Nat) : Bytes := (Nat.toDigits 10 n).map fun c => UInt8.ofNat c.toNat

end NeuStack
