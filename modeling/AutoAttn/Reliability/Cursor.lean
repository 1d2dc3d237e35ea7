import AutoAttn.Reliability.Json

/-!
# The JSON check on a cursor

The code moves a pointer over the text. Here every byte it reads is looked up at the position of
the pointer, so that a read outside the text is told apart from a text that is rejected, and every
loop has a number of turns that it must end in.
-/

namespace ZoneLite

/-! ### Runs -/

/-- A run of the code: `none` when it reads outside the text or a loop does not end, `some none`
when it returns false, and otherwise what it returns. -/
abbrev CursorRun (α : Type) := OptionT Option α

def CursorRun.fault {α : Type} : CursorRun α := OptionT.mk none

/-- `*p` for a text that ends at its length. -/
def byteAt (text : List UInt8) (p : Nat) : CursorRun UInt8 :=
  match text[p]? with
  | some b => pure b
  | none   => .fault

/-- `while (p < end && f(*p)) p++`. -/
def skipAt (f : UInt8 → Bool) (text : List UInt8) : Nat → Nat → CursorRun Nat
  | 0, _         => .fault
  | turns + 1, p =>
    if p < text.length then do
      let b ← byteAt text p
      if f b then skipAt f text turns (p + 1) else pure p
    else pure p

/-- `whitespace` -/
def whitespaceAt (text : List UInt8) (p : Nat) : CursorRun Nat :=
  skipAt isBlank text (text.length + 1) p

/-! ### Strings -/

/-- `for (int i = 0; i < n; i++) if (p == end || !isxdigit(*p++)) return false`. -/
def hexDigitsAt (text : List UInt8) : Nat → Nat → CursorRun Nat
  | 0, p     => pure p
  | n + 1, p =>
    if p = text.length then failure
    else do
      let b ← byteAt text p
      if isXDigit b then hexDigitsAt text n (p + 1) else failure

/-- The loop of `json_string`. -/
def stringLoopAt (text : List UInt8) : Nat → Nat → CursorRun Nat
  | 0, _         => .fault
  | turns + 1, p =>
    if p < text.length then do
      let ch ← byteAt text p
      if ch = 34 then pure (p + 1)
      else if ch < 32 then failure
      else if ch = 92 then
        if p + 1 = text.length then failure
        else do
          let ch ← byteAt text (p + 1)
          if ch = 117 then do
            let p ← hexDigitsAt text 4 (p + 2)
            stringLoopAt text turns p
          else if ch = 0 || !isEscape ch then failure
          else stringLoopAt text turns (p + 2)
      else stringLoopAt text turns (p + 1)
    else failure

/-- `json_string` -/
def jsonStringAt (text : List UInt8) (p : Nat) : CursorRun Nat :=
  if p = text.length then failure
  else do
    let b ← byteAt text p
    if b ≠ 34 then failure else stringLoopAt text (text.length + 1) (p + 1)

/-! ### Numbers -/

/-- `if (p == end || !isdigit(*p)) return false; while (p < end && isdigit(*p)) p++`. -/
def digitsAt (text : List UInt8) (p : Nat) : CursorRun Nat :=
  if p = text.length then failure
  else do
    let b ← byteAt text p
    if !isDigit b then failure else skipAt isDigit text (text.length + 1) p

/-- The integer part, behind the sign. -/
def wholeAt (text : List UInt8) (p : Nat) : CursorRun Nat :=
  if p = text.length then failure
  else do
    let b ← byteAt text p
    if b = 48 then pure (p + 1)
    else if b < 49 || 57 < b then failure
    else skipAt isDigit text (text.length + 1) (p + 1)

def fracAt (text : List UInt8) (p : Nat) : CursorRun Nat :=
  if p < text.length then do
    let b ← byteAt text p
    if b = 46 then digitsAt text (p + 1) else pure p
  else pure p

def signAt (text : List UInt8) (p : Nat) : CursorRun Nat :=
  if p < text.length then do
    let b ← byteAt text p
    if b = 43 || b = 45 then pure (p + 1) else pure p
  else pure p

def expAt (text : List UInt8) (p : Nat) : CursorRun Nat :=
  if p < text.length then do
    let b ← byteAt text p
    if b = 101 || b = 69 then do
      let p ← signAt text (p + 1)
      digitsAt text p
    else pure p
  else pure p

/-- The number at a position inside the text. -/
def numberAt (text : List UInt8) (p : Nat) : CursorRun Nat := do
  let b ← byteAt text p
  let p ← wholeAt text (if b = 45 then p + 1 else p)
  let p ← fracAt text p
  expAt text p

/-! ### Values -/

/-- `end - p >= n && !memcmp(p, word, n)`. -/
def wordAt (text : List UInt8) (p : Nat) (word : String) : CursorRun Bool :=
  if word.length ≤ text.length - p then do
    let bytes ← (List.range word.length).mapM fun i => byteAt text (p + i)
    pure (bytes = ascii word)
  else pure false

/-- The loop over the literals, and the number that is tried after them. -/
def scalarAt (text : List UInt8) (p : Nat) : List String → CursorRun Nat
  | []            => numberAt text p
  | word :: words => do
    if ← wordAt text p word then pure (p + word.length) else scalarAt text p words

/-- The name of a member and its colon. -/
def nameAt (text : List UInt8) (object : Bool) (p : Nat) : CursorRun Nat :=
  if object then do
    let p ← jsonStringAt text p
    let p ← whitespaceAt text p
    if p = text.length then failure
    else do
      let b ← byteAt text p
      if b ≠ 58 then failure else pure (p + 1)
  else pure p

/-- The loop over the members of an object or an array. -/
def membersAt (value : Nat → CursorRun Nat) (text : List UInt8) (object : Bool) :
    Nat → Nat → CursorRun Nat
  | 0, _         => .fault
  | turns + 1, p => do
    let p ← nameAt text object p
    let p ← value p
    let p ← whitespaceAt text p
    if p = text.length then failure
    else do
      let next ← byteAt text p
      if next = (if object then 125 else 93) then pure (p + 1)
      else if next ≠ 44 then failure
      else do
        let p ← whitespaceAt text (p + 1)
        membersAt value text object turns p

/-- What `json_value` does at an opening bracket. -/
def containerAt (value : Nat → CursorRun Nat) (text : List UInt8) (object : Bool) (p : Nat) :
    CursorRun Nat := do
  let p ← whitespaceAt text (p + 1)
  if p < text.length then do
    let b ← byteAt text p
    if b = (if object then 125 else 93) then pure (p + 1)
    else membersAt value text object (text.length + 1) p
  else membersAt value text object (text.length + 1) p

/-- `json_value`, `levels` being how much deeper values may nest: 33 at the depth 0. -/
def jsonValueAt (text : List UInt8) : Nat → Nat → CursorRun Nat
  | 0, p          => do
    let _ ← whitespaceAt text p
    failure
  | levels + 1, p => do
    let p ← whitespaceAt text p
    if p = text.length then failure
    else do
      let b ← byteAt text p
      if b = 34 then jsonStringAt text p
      else if b = 123 || b = 91 then containerAt (jsonValueAt text levels) text (b = 123) p
      else scalarAt text p ["true", "false", "null"]

/-- `rel_json_syntax_valid`, and `none` when it reads outside the text or does not end. -/
def relJsonSyntaxValidAt (text : List UInt8) : Option Bool :=
  (do
    let p ← jsonValueAt text 33 0
    let p ← whitespaceAt text p
    pure (decide (p = text.length)) : CursorRun Bool).run.map (·.getD false)

end ZoneLite
