import AutoAttn.Crash.Disk
import AutoAttn.Lines
import AutoAttn.Text

/-!
# Rows of the legacy files

The firmware checks that a row is one JSON text before it trusts anything in it.
-/

namespace ZoneLite

open Crash

/-! ### JSON syntax -/

def isBlank (b : UInt8) : Bool := b = 32 || b = 9 || b = 13 || b = 10

def whitespace (s : List UInt8) : List UInt8 := s.dropWhile isBlank

def isDigit (b : UInt8) : Bool := 48 ≤ b && b ≤ 57

def isXDigit (b : UInt8) : Bool := isDigit b || (97 ≤ b && b ≤ 102) || (65 ≤ b && b ≤ 70)

/-- `strchr("\"\\/bfnrt", ch)`. -/
def isEscape (b : UInt8) : Bool := (ascii "\"\\/bfnrt").contains b

/-- `json_string` behind the opening quote, and what follows the text. -/
def jsonStringRest : List UInt8 → Option (List UInt8)
  | []                             => none
  | 92 :: 117 :: a :: b :: c :: d :: s =>
    if isXDigit a && isXDigit b && isXDigit c && isXDigit d then jsonStringRest s else none
  | 92 :: ch :: s                  => if isEscape ch then jsonStringRest s else none
  | ch :: s                        =>
    if ch = 34 then some s
    else if ch < 32 || ch = 92 then none
    else jsonStringRest s

def jsonString : List UInt8 → Option (List UInt8)
  | 34 :: s => jsonStringRest s
  | _       => none

/-- The number at the start of `s`. -/
def jsonNumber (s : List UInt8) : Option (List UInt8) := do
  let s := if s.head? = some 45 then s.tail else s
  let s ← match s with
    | 48 :: s => some s
    | d :: s  => if isDigit d then some (s.dropWhile isDigit) else none
    | []      => none
  let s ← match s with
    | 46 :: d :: s => if isDigit d then some (s.dropWhile isDigit) else none
    | [46]         => none
    | s            => some s
  if s.head? = some 101 ∨ s.head? = some 69 then
    let s := if s.tail.head? = some 43 ∨ s.tail.head? = some 45 then s.tail.tail else s.tail
    match s with
    | d :: s => if isDigit d then some (s.dropWhile isDigit) else none
    | []     => none
  else some s

/-- The members of an object or an array behind the opening bracket, `value` reading a value.
Each turn uses up a byte at least, so that as many turns as there are bytes are enough. -/
def jsonMembers (value : List UInt8 → Option (List UInt8)) (object : Bool) :
    Nat → List UInt8 → Option (List UInt8)
  | 0, _         => none
  | turns + 1, s => do
    let s ← if object then do
        let s ← jsonString s
        match whitespace s with
        | 58 :: s => some s
        | _       => none
      else some s
    let s ← value s
    match whitespace s with
    | next :: s =>
      if next = (if object then 125 else 93) then some s
      else if next ≠ 44 then none
      else jsonMembers value object turns (whitespace s)
    | [] => none

/-- `json_value`, `levels` being how much deeper values may nest. -/
def jsonValue : Nat → List UInt8 → Option (List UInt8)
  | 0, _          => none
  | levels + 1, s =>
    match whitespace s with
    | []      => none
    | b :: s' =>
      if b = 34 then jsonString (b :: s')
      else if b = 123 ∨ b = 91 then
        let s := whitespace s'
        if s.head? = some (if b = 123 then 125 else 93) then some s.tail
        else jsonMembers (jsonValue levels) (b = 123) s.length s
      else
        match ["true", "false", "null"].find? fun word => ascii word <+: b :: s' with
        | some word => some ((b :: s').drop word.length)
        | none      => jsonNumber (b :: s')

/-- `rel_json_syntax_valid`. -/
def relJsonSyntaxValid (text : List UInt8) : Bool :=
  match jsonValue 33 text with
  | some rest => whitespace rest = []
  | none      => false

/-! ### Appending -/

variable {κ ν ρ : Type} [DecidableEq κ]

end ZoneLite
