import Mathlib.Data.List.Basic

/-!
# JSON texts

The grammar of RFC 8259 over bytes. Strings are not checked for UTF-8, so every byte that is not a
control character stands for itself. A value is given with a bound on how many containers any value
inside it is nested in.
-/

namespace JsonText

/-! ### Characters -/

/-- White space. -/
def Ws (s : List UInt8) : Prop := ∀ b ∈ s, b = 0x20 ∨ b = 0x09 ∨ b = 0x0A ∨ b = 0x0D

def Digit (b : UInt8) : Prop := 0x30 ≤ b ∧ b ≤ 0x39

def HexDig (b : UInt8) : Prop := Digit b ∨ 0x41 ≤ b ∧ b ≤ 0x46 ∨ 0x61 ≤ b ∧ b ≤ 0x66

/-- The characters that may follow a backslash, `u` apart. -/
def Escaped (b : UInt8) : Prop :=
  b ∈ [0x22, 0x5C, 0x2F, 0x62, 0x66, 0x6E, 0x72, (0x74 : UInt8)]

/-! ### Strings and numbers -/

/-- What stands between the quotes of a string. -/
inductive Chars : List UInt8 → Prop where
  | nil : Chars []
  | plain {b s} (control : 0x20 ≤ b) (quote : b ≠ 0x22) (backslash : b ≠ 0x5C) (rest : Chars s) :
      Chars (b :: s)
  | escape {b s} (escaped : Escaped b) (rest : Chars s) : Chars (0x5C :: b :: s)
  | unicode {a b c d s} (ha : HexDig a) (hb : HexDig b) (hc : HexDig c) (hd : HexDig d)
      (rest : Chars s) : Chars (0x5C :: 0x75 :: a :: b :: c :: d :: s)

def Str (s : List UInt8) : Prop := ∃ chars, Chars chars ∧ s = 0x22 :: (chars ++ [0x22])

/-- One digit at least. -/
def Digits (s : List UInt8) : Prop := s ≠ [] ∧ ∀ b ∈ s, Digit b

/-- The integer part of a number has no leading zero. -/
inductive Whole : List UInt8 → Prop where
  | zero : Whole [0x30]
  | nonzero {d s} (digit : Digit d) (leading : d ≠ 0x30) (rest : ∀ b ∈ s, Digit b) : Whole (d :: s)

def Frac (s : List UInt8) : Prop := s = [] ∨ ∃ digits, Digits digits ∧ s = 0x2E :: digits

def Exp (s : List UInt8) : Prop :=
  s = [] ∨ ∃ e sign digits, (e = 0x65 ∨ e = 0x45) ∧ (sign = [] ∨ sign = [0x2B] ∨ sign = [0x2D]) ∧
    Digits digits ∧ s = e :: (sign ++ digits)

def Number (s : List UInt8) : Prop :=
  ∃ minus whole frac exp, (minus = [] ∨ minus = [0x2D]) ∧ Whole whole ∧ Frac frac ∧ Exp exp ∧
    s = minus ++ whole ++ frac ++ exp

/-- `true`, `false` and `null`. -/
def Literal (s : List UInt8) : Prop :=
  s = [0x74, 0x72, 0x75, 0x65] ∨ s = [0x66, 0x61, 0x6C, 0x73, 0x65] ∨ s = [0x6E, 0x75, 0x6C, 0x6C]

/-! ### Containers and values -/

inductive Container where
  | object
  | array
deriving DecidableEq

def Container.opening : Container → UInt8
  | .object => 0x7B
  | .array  => 0x5B

def Container.closing : Container → UInt8
  | .object => 0x7D
  | .array  => 0x5D

/-- What stands before the value of an element: the name of a member and its colon. -/
def Name : Container → List UInt8 → Prop
  | .object, s => ∃ name ws, Str name ∧ Ws ws ∧ s = name ++ ws ++ [0x3A]
  | .array, s  => s = []

/-- A value `V` with its name and the white space around it. -/
def Element (V : List UInt8 → Prop) (k : Container) (s : List UInt8) : Prop :=
  ∃ name lead value trail, Name k name ∧ Ws lead ∧ V value ∧ Ws trail ∧
    s = name ++ lead ++ value ++ trail

/-- Elements separated by commas. -/
inductive Elements (V : List UInt8 → Prop) (k : Container) : List UInt8 → Prop where
  | last {s} (element : Element V k s) : Elements V k s
  | more {s ws rest} (element : Element V k s) (gap : Ws ws) (others : Elements V k rest) :
      Elements V k (s ++ 0x2C :: (ws ++ rest))

/-- The values in which no other value is nested. -/
inductive Flat : List UInt8 → Prop where
  | str {s} (h : Str s) : Flat s
  | number {s} (h : Number s) : Flat s
  | literal {s} (h : Literal s) : Flat s
  | empty (k : Container) {ws} (h : Ws ws) : Flat (k.opening :: (ws ++ [k.closing]))

/-- The values in which no value is nested in more than `n` containers. -/
def Value : Nat → List UInt8 → Prop
  | 0, s     => Flat s
  | n + 1, s => Flat s ∨ ∃ k ws elements, Ws ws ∧ Elements (Value n) k elements ∧
      s = k.opening :: (ws ++ elements ++ [k.closing])

/-- The values that may stand in a container when `n` more containers may be opened. -/
def Inner : Nat → List UInt8 → Prop
  | 0, _     => False
  | n + 1, s => Value n s

lemma Elements.exists_value {V : List UInt8 → Prop} {k : Container} {s : List UInt8}
    (h : Elements V k s) : ∃ v, V v := by
  cases h with
  | last element =>
    obtain ⟨_, _, v, _, _, _, hv, _⟩ := element
    exact ⟨v, hv⟩
  | more element =>
    obtain ⟨_, _, v, _, _, _, hv, _⟩ := element
    exact ⟨v, hv⟩

lemma value_iff {n : Nat} {s : List UInt8} : Value n s ↔ Flat s ∨ ∃ k ws elements, Ws ws ∧
    Elements (Inner n) k elements ∧ s = k.opening :: (ws ++ elements ++ [k.closing]) := by
  cases n with
  | zero =>
    refine ⟨.inl, ?_⟩
    rintro (h | ⟨k, ws, elements, -, h, -⟩)
    · exact h
    · exact h.exists_value.elim fun _ hv => hv.elim
  | succ n => exact Iff.rfl

/-- One value with white space around it. -/
def Text (n : Nat) (s : List UInt8) : Prop :=
  ∃ lead value trail, Ws lead ∧ Value n value ∧ Ws trail ∧ s = lead ++ value ++ trail

end JsonText
