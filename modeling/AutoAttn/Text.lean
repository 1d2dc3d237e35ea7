import Mathlib.Data.List.Basic

/-!
# Texts that the firmware writes and reads

Numbers as `snprintf` prints them, and texts as the bytes they are stored in.
-/

namespace ZoneLite

def hexDigit (n : Nat) : Char := "0123456789abcdef".toList.getD n '0'

/-- `%0*x` with `n` digits. -/
def hexDigits : Nat → Nat → List Char
  | 0, _     => []
  | n + 1, v => hexDigits n (v / 16) ++ [hexDigit (v % 16)]

def digitValue (c : Char) : Option Nat :=
  if '0' ≤ c ∧ c ≤ '9' then some (c.toNat - '0'.toNat)
  else if 'a' ≤ c ∧ c ≤ 'f' then some (c.toNat - 'a'.toNat + 10)
  else none

def ascii (s : String) : List UInt8 := s.toList.map Char.toUInt8

/-- `%llu`. -/
def decimal (n : Nat) : List UInt8 := (Nat.toDigits 10 n).map Char.toUInt8

end ZoneLite
