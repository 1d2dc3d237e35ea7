import AutoAttn.Reliability.Cursor

/-!
# The cursor stays in the text

Each function of the JSON check on a cursor ends, reads inside the text only, and takes the text
that the reader on lists takes. With the grammar of that reader this settles what
`rel_json_syntax_valid` accepts.
-/

namespace ZoneLite

open JsonText

/-! ### Following the reader on lists -/

/-- The run from position `p` does what the reader does, which rejects or leaves a rest. -/
inductive Follows (text : List UInt8) (p : Nat) : Option (List UInt8) → CursorRun Nat → Prop where
  | rejects : Follows text p none failure
  | reaches {q : Nat} (forward : p ≤ q) (inside : q ≤ text.length) :
      Follows text p (some (text.drop q)) (pure q)

variable {text : List UInt8} {p : Nat}

lemma Follows.mono {p' : Nat} {r : Option (List UInt8)} {m : CursorRun Nat} (h : Follows text p r m)
    (hp : p' ≤ p) : Follows text p' r m := by
  cases h with
  | rejects => exact .rejects
  | reaches forward inside => exact .reaches (hp.trans forward) inside

lemma Follows.eq_failure {m : CursorRun Nat} (h : Follows text p none m) : m = failure := by
  cases h
  rfl

lemma Follows.bind {r : Option (List UInt8)} {m : CursorRun Nat}
    {g : List UInt8 → Option (List UInt8)} {f : Nat → CursorRun Nat} (h : Follows text p r m)
    (hf : ∀ q, p ≤ q → q ≤ text.length → Follows text q (g (text.drop q)) (f q)) :
    Follows text p (r.bind g) (m >>= f) := by
  cases h with
  | rejects => exact .rejects
  | reaches forward inside => exact (hf _ forward inside).mono forward

/-- The same when the reader cannot reject. -/
lemma Follows.bind_some {s : List UInt8} {m : CursorRun Nat} {r : Option (List UInt8)}
    {f : Nat → CursorRun Nat} (h : Follows text p (some s) m)
    (hf : ∀ q, p ≤ q → q ≤ text.length → text.drop q = s → Follows text q r (f q)) :
    Follows text p r (m >>= f) := by
  cases h with
  | reaches forward inside => exact (hf _ forward inside rfl).mono forward

/-- A position is the end of the text, or a byte is read there. -/
lemma cursor_cases (hp : p ≤ text.length) :
    (p = text.length ∧ text.drop p = []) ∨
      ∃ b, p < text.length ∧ text.drop p = b :: text.drop (p + 1) ∧ byteAt text p = pure b := by
  rcases hp.eq_or_lt with rfl | hlt
  · exact .inl ⟨rfl, List.drop_length⟩
  · refine .inr ⟨text[p], hlt, List.drop_eq_getElem_cons hlt, ?_⟩
    rw [byteAt, List.getElem?_eq_getElem hlt]

lemma Follows.here (hp : p ≤ text.length) : Follows text p (some (text.drop p)) (pure p) :=
  .reaches le_rfl hp

lemma follows_skipAt (f : UInt8 → Bool) {turns : Nat} (hp : p ≤ text.length)
    (hturns : text.length - p < turns) :
    Follows text p (some ((text.drop p).dropWhile f)) (skipAt f text turns p) := by
  induction turns generalizing p with
  | zero => omega
  | succ turns ih =>
    rw [skipAt]
    rcases cursor_cases hp with ⟨hend, hdrop⟩ | ⟨b, hlt, hdrop, hbyte⟩
    · rw [if_neg (by omega), hdrop, List.dropWhile_nil, ← hdrop]
      exact .here hp
    · rw [if_pos hlt, hbyte, pure_bind, hdrop, List.dropWhile_cons]
      split_ifs
      · exact (ih (by omega) (by omega)).mono (by omega)
      · rw [← hdrop]
        exact .here hp

lemma follows_whitespaceAt (hp : p ≤ text.length) :
    Follows text p (some (whitespace (text.drop p))) (whitespaceAt text p) :=
  follows_skipAt isBlank hp (by omega)

/-! ### Strings -/

/-- As many hexadecimal digits. -/
def readHex : Nat → List UInt8 → Option (List UInt8)
  | 0, s          => some s
  | n + 1, b :: s => if isXDigit b then readHex n s else none
  | _ + 1, []     => none

lemma follows_hexDigitsAt (n : Nat) (hp : p ≤ text.length) :
    Follows text p (readHex n (text.drop p)) (hexDigitsAt text n p) := by
  induction n generalizing p with
  | zero => exact .here hp
  | succ n ih =>
    rw [hexDigitsAt]
    rcases cursor_cases hp with ⟨hend, hdrop⟩ | ⟨b, hlt, hdrop, hbyte⟩
    · rw [if_pos hend, hdrop]
      exact .rejects
    · rw [if_neg hlt.ne, hbyte, pure_bind, hdrop, readHex]
      split_ifs
      · exact (ih hlt).mono (by omega)
      · exact .rejects

lemma jsonStringRest_unicode (s : List UInt8) :
    jsonStringRest (92 :: 117 :: s) = (readHex 4 s).bind jsonStringRest := by
  have hu : isEscape 117 = false := by decide
  rcases s with _ | ⟨a, _ | ⟨b, _ | ⟨c, _ | ⟨d, s⟩⟩⟩⟩
  · simp [jsonStringRest, readHex, hu]
  · cases ha : isXDigit a <;> simp [jsonStringRest, readHex, hu, ha]
  · cases ha : isXDigit a <;> cases hb : isXDigit b <;> simp [jsonStringRest, readHex, hu, ha, hb]
  · cases ha : isXDigit a <;> cases hb : isXDigit b <;> cases hc : isXDigit c <;>
      simp [jsonStringRest, readHex, hu, ha, hb, hc]
  · cases ha : isXDigit a <;> cases hb : isXDigit b <;> cases hc : isXDigit c <;>
      cases hd : isXDigit d <;> simp [jsonStringRest, readHex, ha, hb, hc, hd]

lemma jsonStringRest_escape {ch : UInt8} (hch : ch ≠ 117) (s : List UInt8) :
    jsonStringRest (92 :: ch :: s) = if isEscape ch then jsonStringRest s else none := by
  rw [jsonStringRest]
  rintro _ _ _ _ _ rfl
  exact absurd rfl hch

lemma jsonStringRest_cons {ch : UInt8} (hch : ch ≠ 92) (s : List UInt8) :
    jsonStringRest (ch :: s) =
      if ch = 34 then some s else if ch < 32 then none else jsonStringRest s := by
  rw [jsonStringRest]
  · simp [hch]
  · rintro _ _ _ _ _ rfl
    exact absurd rfl hch
  · rintro _ _ rfl
    exact absurd rfl hch

lemma follows_stringLoopAt {turns : Nat} (hp : p ≤ text.length) (hturns : text.length - p < turns) :
    Follows text p (jsonStringRest (text.drop p)) (stringLoopAt text turns p) := by
  induction turns generalizing p with
  | zero => omega
  | succ turns ih =>
    have hnext : ∀ q, p < q → q ≤ text.length →
        Follows text q (jsonStringRest (text.drop q)) (stringLoopAt text turns q) :=
      fun q hq hq' => ih hq' (by omega)
    rw [stringLoopAt]
    rcases cursor_cases hp with ⟨hend, hdrop⟩ | ⟨ch, hlt, hdrop, hbyte⟩
    · rw [if_neg (by omega), hdrop]
      exact .rejects
    rw [if_pos hlt, hbyte, pure_bind, hdrop]
    by_cases hslash : ch = 92
    · subst hslash
      rw [if_neg (by decide), if_neg (by decide), if_pos rfl]
      rcases cursor_cases (show p + 1 ≤ text.length from hlt) with
        ⟨hend, hdrop'⟩ | ⟨ch, hlt', hdrop', hbyte'⟩
      · rw [if_pos hend, hdrop']
        exact .rejects
      rw [if_neg hlt'.ne, hbyte', pure_bind, hdrop']
      by_cases hu : ch = 117
      · subst hu
        rw [if_pos rfl, jsonStringRest_unicode]
        exact (Follows.bind (follows_hexDigitsAt 4 hlt') fun q hq hq' =>
          hnext q (by omega) hq').mono (by omega)
      · have hzero : (ch = 0 || !isEscape ch) = !isEscape ch := by
          by_cases hch : ch = 0
          · subst hch
            decide
          · simp [hch]
        rw [if_neg hu, jsonStringRest_escape hu]
        simp only [hzero]
        cases isEscape ch with
        | false => exact .rejects
        | true => exact (hnext (p + 2) (by omega) hlt').mono (by omega)
    · rw [jsonStringRest_cons hslash]
      split_ifs
      · exact .reaches (by omega) hlt
      · exact .rejects
      · exact (hnext (p + 1) (by omega) hlt).mono (by omega)

lemma follows_jsonStringAt (hp : p ≤ text.length) :
    Follows text p (jsonString (text.drop p)) (jsonStringAt text p) := by
  rw [jsonStringAt]
  rcases cursor_cases hp with ⟨hend, hdrop⟩ | ⟨b, hlt, hdrop, hbyte⟩
  · rw [if_pos hend, hdrop]
    exact .rejects
  rw [if_neg hlt.ne, hbyte, pure_bind, hdrop]
  by_cases hb : b = 34
  · subst hb
    rw [if_neg (by simp), jsonString]
    exact (follows_stringLoopAt hlt (by omega)).mono (by omega)
  · rw [if_pos hb, jsonString]
    · exact .rejects
    · intro s heq
      exact hb (List.cons.inj heq).1

/-! ### Numbers -/

/-- One digit at least. -/
def readDigits : List UInt8 → Option (List UInt8)
  | d :: s => if isDigit d then some (s.dropWhile isDigit) else none
  | []     => none

lemma follows_digitsAt (hp : p ≤ text.length) :
    Follows text p (readDigits (text.drop p)) (digitsAt text p) := by
  rw [digitsAt]
  rcases cursor_cases hp with ⟨hend, hdrop⟩ | ⟨b, hlt, hdrop, hbyte⟩
  · rw [if_pos hend, hdrop]
    exact .rejects
  rw [if_neg hlt.ne, hbyte, pure_bind, hdrop, readDigits]
  cases hb : isDigit b with
  | false => exact .rejects
  | true =>
    have hskip := follows_skipAt isDigit hp (by omega : text.length - p < text.length + 1)
    rw [hdrop, List.dropWhile_cons_of_pos hb] at hskip
    exact hskip

lemma follows_wholeAt (hp : p ≤ text.length) :
    Follows text p (readWhole (text.drop p)) (wholeAt text p) := by
  rw [wholeAt]
  rcases cursor_cases hp with ⟨hend, hdrop⟩ | ⟨b, hlt, hdrop, hbyte⟩
  · rw [if_pos hend, hdrop]
    exact .rejects
  rw [if_neg hlt.ne, hbyte, pure_bind, hdrop]
  by_cases hb : b = 48
  · subst hb
    exact .reaches (by omega) hlt
  · have hdigit : isDigit b = !(b < 49 || 57 < b) := by
      simp only [isDigit, Bool.not_or, ← decide_not, UInt8.not_lt, UInt8.le_iff_toNat_le,
        ← UInt8.toNat_inj] at hb ⊢
      congr 1
      rw [decide_eq_decide]
      simp at hb ⊢
      omega
    rw [if_neg hb, readWhole, hdigit]
    · cases (b < 49 || 57 < b : Bool) with
      | true => exact .rejects
      | false => exact (follows_skipAt isDigit hlt (by omega)).mono (by omega)
    · rintro rfl
      exact hb rfl

lemma follows_fracAt (hp : p ≤ text.length) :
    Follows text p (readFrac (text.drop p)) (fracAt text p) := by
  rw [fracAt]
  rcases cursor_cases hp with ⟨hend, hdrop⟩ | ⟨b, hlt, hdrop, hbyte⟩
  · rw [if_neg (by omega), show readFrac (text.drop p) = some (text.drop p) by rw [hdrop]; rfl]
    exact .here hp
  rw [if_pos hlt, hbyte, pure_bind]
  by_cases hb : b = 46
  · subst hb
    have hread : readFrac (text.drop p) = readDigits (text.drop (p + 1)) := by
      rw [hdrop]
      cases text.drop (p + 1) <;> rfl
    rw [if_pos rfl, hread]
    exact (follows_digitsAt hlt).mono (by omega)
  · have hread : readFrac (text.drop p) = some (text.drop p) := by
      rw [hdrop, readFrac]
      · rintro _ _ heq
        exact hb (List.cons.inj heq).1
      · intro heq
        exact hb (List.cons.inj heq).1
    rw [if_neg hb, hread]
    exact .here hp

lemma follows_signAt (hp : p ≤ text.length) :
    Follows text p (some (skipSign (text.drop p))) (signAt text p) := by
  rw [signAt]
  rcases cursor_cases hp with ⟨hend, hdrop⟩ | ⟨b, hlt, hdrop, hbyte⟩
  · rw [if_neg (by omega), show skipSign (text.drop p) = text.drop p by rw [hdrop]; rfl]
    exact .here hp
  rw [if_pos hlt, hbyte, pure_bind]
  by_cases hb : b = 43 ∨ b = 45
  · have hskip : skipSign (text.drop p) = text.drop (p + 1) := by
      rw [hdrop, skipSign, if_pos (by simpa using hb), List.tail_cons]
    rw [if_pos (by simpa using hb), hskip]
    exact .reaches (by omega) hlt
  · have hskip : skipSign (text.drop p) = text.drop p := by
      rw [hdrop, skipSign, if_neg (by simpa using hb)]
    rw [if_neg (by simpa using hb), hskip]
    exact .here hp

lemma readExp_cons {b : UInt8} (hb : b = 101 ∨ b = 69) (s : List UInt8) :
    readExp (b :: s) = readDigits (skipSign s) := by
  rw [readExp, if_pos (by simpa using hb), List.tail_cons]
  rfl

lemma follows_expAt (hp : p ≤ text.length) :
    Follows text p (readExp (text.drop p)) (expAt text p) := by
  rw [expAt]
  rcases cursor_cases hp with ⟨hend, hdrop⟩ | ⟨b, hlt, hdrop, hbyte⟩
  · rw [if_neg (by omega), show readExp (text.drop p) = some (text.drop p) by rw [hdrop]; rfl]
    exact .here hp
  rw [if_pos hlt, hbyte, pure_bind]
  by_cases hb : b = 101 ∨ b = 69
  · rw [if_pos (by simpa using hb), hdrop, readExp_cons hb]
    exact (Follows.bind (follows_signAt hlt) fun q _ hq => follows_digitsAt hq).mono (by omega)
  · have hread : readExp (text.drop p) = some (text.drop p) := by
      rw [hdrop, readExp, if_neg (by simpa using hb)]
    rw [if_neg (by simpa using hb), hread]
    exact .here hp

lemma follows_numberAt (hp : p < text.length) :
    Follows text p (jsonNumber (text.drop p)) (numberAt text p) := by
  rcases cursor_cases hp.le with ⟨hend, -⟩ | ⟨b, hlt, hdrop, hbyte⟩
  · omega
  have hminus : skipMinus (text.drop p) = text.drop (if b = 45 then p + 1 else p) := by
    rw [skipMinus, hdrop]
    by_cases hb : b = 45
    · simp [hb]
    · simp [hb, hdrop]
  have hpos : p ≤ (if b = 45 then p + 1 else p) ∧ (if b = 45 then p + 1 else p) ≤ text.length := by
    split_ifs <;> omega
  rw [numberAt, hbyte, pure_bind, jsonNumber_eq, hminus]
  refine Follows.mono (Follows.bind (follows_wholeAt hpos.2) fun q _ hq => ?_) hpos.1
  exact Follows.bind (follows_fracAt hq) fun q' _ hq' => follows_expAt hq'

/-! ### Values -/

lemma mapM_byteAt {n : Nat} (h : p + n ≤ text.length) :
    (List.range n).mapM (fun i => byteAt text (p + i)) = pure ((text.drop p).take n) := by
  induction n with
  | zero => rfl
  | succ n ih =>
    have hbyte : byteAt text (p + n) = pure text[p + n] := by
      rw [byteAt, List.getElem?_eq_getElem (by omega)]
    have htake : (text.drop p).take (n + 1) = (text.drop p).take n ++ [text[p + n]] := by
      rw [List.take_add_one, List.getElem?_drop, List.getElem?_eq_getElem (by omega)]
      rfl
    rw [List.range_succ, List.mapM_append, ih (by omega), htake]
    simp [hbyte]

lemma wordAt_eq (hp : p ≤ text.length) {word : String} (hword : (ascii word).length = word.length) :
    wordAt text p word = pure (decide (ascii word <+: text.drop p)) := by
  have hlength : (text.drop p).length = text.length - p := List.length_drop
  rw [wordAt]
  split_ifs with hle
  · rw [mapM_byteAt (by omega), pure_bind]
    congr 1
    rw [decide_eq_decide, List.prefix_iff_eq_take, hword, eq_comm]
  · have hno : ¬ ascii word <+: text.drop p := by
      intro hpre
      have := hpre.length_le
      omega
    rw [decide_eq_false hno]

lemma follows_scalarAt (hp : p < text.length) {words : List String}
    (hwords : ∀ word ∈ words, (ascii word).length = word.length) :
    Follows text p (match words.find? fun word => ascii word <+: text.drop p with
      | some word => some ((text.drop p).drop word.length)
      | none      => jsonNumber (text.drop p)) (scalarAt text p words) := by
  induction words with
  | nil => exact follows_numberAt hp
  | cons word words ih =>
    have hword := hwords word List.mem_cons_self
    rw [scalarAt, wordAt_eq hp.le hword, pure_bind, List.find?_cons]
    by_cases hpre : ascii word <+: text.drop p
    · simp only [hpre, decide_true, if_true, List.drop_drop]
      have hlength := hpre.length_le
      rw [List.length_drop] at hlength
      exact .reaches (by omega) (by omega)
    · simp only [hpre, decide_false, Bool.false_eq_true, if_false]
      exact ih fun w hw => hwords w (List.mem_cons_of_mem _ hw)

lemma follows_nameAt (object : Bool) (hp : p ≤ text.length) :
    Follows text p (readName object (text.drop p)) (nameAt text object p) := by
  cases object with
  | false => exact .here hp
  | true =>
    rw [readName, nameAt, if_pos rfl, if_pos rfl]
    refine Follows.bind (follows_jsonStringAt hp) fun q _ hq => ?_
    refine Follows.bind_some (follows_whitespaceAt hq) fun q' _ hq' heq => ?_
    rw [← heq]
    rcases cursor_cases hq' with ⟨hend, hdrop⟩ | ⟨b, hlt, hdrop, hbyte⟩
    · rw [if_pos hend, hdrop]
      exact .rejects
    rw [if_neg hlt.ne, hbyte, pure_bind, hdrop]
    by_cases hb : b = 58
    · subst hb
      exact .reaches (by omega) hlt
    · rw [if_pos hb, readColon]
      · exact .rejects
      · intro s heq
        exact hb (List.cons.inj heq).1

section Members

variable {value : List UInt8 → Option (List UInt8)} {valueAt : Nat → CursorRun Nat}

lemma follows_membersAt (hvalue : ∀ q ≤ text.length, Follows text q (value (text.drop q)) (valueAt q))
    (hnil : value [] = none) (object : Bool) {steps turns : Nat} (hp : p ≤ text.length)
    (hsteps : text.length - p < steps) (hturns : text.length - p ≤ turns) :
    Follows text p (jsonMembers value object turns (text.drop p))
      (membersAt valueAt text object steps p) := by
  induction steps generalizing p turns with
  | zero => omega
  | succ steps ih =>
    cases turns with
    | zero =>
      -- nothing is left of the text
      obtain rfl : p = text.length := by omega
      have hend : text.drop text.length = [] := List.drop_length
      have hvalue := hvalue text.length le_rfl
      have hname := follows_nameAt object (le_refl text.length)
      rw [hend] at hvalue hname
      rw [hnil] at hvalue
      rw [membersAt]
      cases object with
      | false =>
        rw [nameAt, if_neg Bool.false_ne_true, pure_bind, hvalue.eq_failure]
        exact .rejects
      | true =>
        rw [Follows.eq_failure hname]
        exact .rejects
    | succ turns =>
      rw [membersAt, jsonMembers_succ]
      refine Follows.bind (follows_nameAt object hp) fun q hq hq' => ?_
      refine Follows.bind (hvalue q hq') fun q₁ hq₁ hq₁' => ?_
      refine Follows.bind_some (follows_whitespaceAt hq₁') fun q₂ hq₂ hq₂' heq => ?_
      rw [← heq]
      rcases cursor_cases hq₂' with ⟨hend, hdrop⟩ | ⟨next, hlt, hdrop, hbyte⟩
      · rw [if_pos hend, hdrop]
        exact .rejects
      rw [if_neg hlt.ne, hbyte, pure_bind, hdrop, ← closing_container]
      dsimp only
      split_ifs
      · exact .reaches (by omega) hlt
      · exact .rejects
      · refine Follows.mono ?_ (Nat.le_succ q₂)
        refine Follows.bind_some (follows_whitespaceAt hlt) fun q₃ hq₃ hq₃' heq => ?_
        rw [← heq]
        exact ih hq₃' (by omega) (by omega)

/-- At an opening bracket. -/
lemma follows_containerAt
    (hvalue : ∀ q ≤ text.length, Follows text q (value (text.drop q)) (valueAt q))
    (hnil : value [] = none) (object : Bool) (hp : p < text.length) :
    Follows text p (if (whitespace (text.drop (p + 1))).head? = some (container object).closing then
        some (whitespace (text.drop (p + 1))).tail
      else jsonMembers value object (whitespace (text.drop (p + 1))).length
        (whitespace (text.drop (p + 1)))) (containerAt valueAt text object p) := by
  rw [containerAt]
  refine Follows.mono ?_ (Nat.le_succ p)
  refine Follows.bind_some (follows_whitespaceAt hp) fun q hq hq' heq => ?_
  rw [← heq]
  have hmembers : Follows text q (jsonMembers value object (text.drop q).length (text.drop q))
      (membersAt valueAt text object (text.length + 1) q) :=
    follows_membersAt hvalue hnil object hq' (by omega) (by rw [List.length_drop])
  rcases cursor_cases hq' with ⟨hend, hdrop⟩ | ⟨b, hlt, hdrop, hbyte⟩
  · rw [if_neg (by simp [hdrop]), if_neg (by omega)]
    exact hmembers
  · rw [if_pos hlt, hbyte, pure_bind, ← closing_container]
    by_cases hb : b = (container object).closing
    · rw [if_pos (by simp [hdrop, hb]), if_pos hb, hdrop]
      exact .reaches (by omega) hlt
    · rw [if_neg (by simpa [hdrop] using hb), if_neg hb]
      exact hmembers

end Members

lemma follows_jsonValueAt (levels : Nat) (hp : p ≤ text.length) :
    Follows text p (jsonValue levels (text.drop p)) (jsonValueAt text levels p) := by
  induction levels generalizing p with
  | zero =>
    rw [jsonValueAt]
    exact Follows.bind_some (follows_whitespaceAt hp) fun q _ _ _ => .rejects
  | succ levels ih =>
    rw [jsonValueAt]
    refine Follows.bind_some (follows_whitespaceAt hp) fun q _ hq heq => ?_
    rcases cursor_cases hq with ⟨hend, hdrop⟩ | ⟨b, hlt, hdrop, hbyte⟩
    · rw [if_pos hend, jsonValue_nil (heq.symm.trans hdrop)]
      exact .rejects
    rw [if_neg hlt.ne, hbyte, pure_bind, jsonValue_cons (heq.symm.trans hdrop)]
    by_cases hquote : b = 34
    · rw [if_pos hquote, if_pos hquote, ← hdrop]
      exact follows_jsonStringAt hq
    rw [if_neg hquote, if_neg hquote]
    by_cases hopen : b = 123 ∨ b = 91
    · have hopen' : (decide (b = 123) || decide (b = 91)) = true := by simpa using hopen
      rw [if_pos hopen, if_pos hopen']
      exact follows_containerAt (fun q hq => ih hq) (jsonValue_nil rfl) _ hlt
    · rw [if_neg hopen, if_neg (by simpa using hopen), ← hdrop]
      exact follows_scalarAt hlt (by decide)

/-- `rel_json_syntax_valid` ends without reading outside the text, and it accepts exactly the JSON
texts in which no value is nested in more than 32 containers. -/
theorem rel_json_syntax_valid_iff_grammar (text : List UInt8) :
    ∃ valid, relJsonSyntaxValidAt text = some valid ∧ (valid = true ↔ Text 32 text) := by
  refine ⟨relJsonSyntaxValid text, ?_, relJsonSyntaxValid_iff text⟩
  have hvalue : Follows text 0 (jsonValue 33 text) (jsonValueAt text 33 0) :=
    follows_jsonValueAt 33 (Nat.zero_le _)
  unfold relJsonSyntaxValidAt relJsonSyntaxValid
  generalize jsonValue 33 text = r at hvalue ⊢
  generalize jsonValueAt text 33 0 = m at hvalue ⊢
  cases hvalue with
  | rejects => rfl
  | @reaches q _ inside =>
    have hblank := follows_whitespaceAt inside
    rw [pure_bind]
    generalize whitespaceAt text q = m at hblank ⊢
    generalize hrest : whitespace (text.drop q) = rest at hblank
    cases hblank with
    | @reaches q' _ inside' =>
      have hend : q' = text.length ↔ whitespace (text.drop q) = [] := by
        rw [hrest, List.drop_eq_nil_iff]
        omega
      rw [pure_bind]
      simp [hend]

end ZoneLite
