import AutoAttn.JsonText
import AutoAttn.Reliability

/-!
# The JSON check and the grammar

The reader of the JSON check takes a text of the grammar off the front of what it is given, and it
takes every such text that something delimits.
-/

namespace ZoneLite

open JsonText

/-! ### Characters -/

lemma isBlank_iff {b : UInt8} :
    isBlank b = true ↔ b = 0x20 ∨ b = 0x09 ∨ b = 0x0A ∨ b = 0x0D := by
  simp only [isBlank, Bool.or_eq_true, decide_eq_true_eq]
  tauto

lemma isDigit_iff {b : UInt8} : isDigit b = true ↔ Digit b := by
  simp [isDigit, Digit]

lemma isXDigit_iff {b : UInt8} : isXDigit b = true ↔ HexDig b := by
  simp only [isXDigit, HexDig, Bool.or_eq_true, Bool.and_eq_true, decide_eq_true_eq, isDigit_iff]
  tauto

lemma isEscape_iff {b : UInt8} : isEscape b = true ↔ Escaped b := by
  have hchars : ascii "\"\\/bfnrt" = [0x22, 0x5C, 0x2F, 0x62, 0x66, 0x6E, 0x72, 0x74] := by decide
  rw [isEscape, hchars, List.contains_iff_mem]
  rfl

/-! ### White space and digits -/

/-- The text does not go on with white space. -/
def NoWs (s : List UInt8) : Prop := ∀ b ∈ s.head?, isBlank b = false

lemma dropWhile_eq_self {p : UInt8 → Bool} {s : List UInt8} (h : ∀ b ∈ s.head?, p b = false) :
    s.dropWhile p = s := by
  cases s with
  | nil => rfl
  | cons b s => exact List.dropWhile_cons_of_neg (by simp [h b rfl])

/-- A run of characters that something else delimits. -/
lemma dropWhile_run {p : UInt8 → Bool} {s t : List UInt8} (hs : ∀ b ∈ s, p b = true)
    (ht : ∀ b ∈ t.head?, p b = false) : (s ++ t).dropWhile p = t := by
  rw [List.dropWhile_append_of_pos hs, dropWhile_eq_self ht]

lemma noWs_whitespace (s : List UInt8) : NoWs (whitespace s) := by
  intro b hb
  have hhead := List.head?_dropWhile_not isBlank s
  rw [whitespace] at hb
  rw [hb] at hhead
  exact hhead

lemma exists_whitespace (s : List UInt8) : ∃ ws, Ws ws ∧ s = ws ++ whitespace s := by
  refine ⟨s.takeWhile isBlank, fun b hb => ?_, List.takeWhile_append_dropWhile.symm⟩
  exact isBlank_iff.mp (List.mem_takeWhile_imp hb)

lemma whitespace_append {ws s : List UInt8} (h : Ws ws) : whitespace (ws ++ s) = whitespace s :=
  List.dropWhile_append_of_pos fun b hb => isBlank_iff.mpr (h b hb)

lemma NoWs.whitespace {s : List UInt8} (h : NoWs s) : whitespace s = s := dropWhile_eq_self h

lemma whitespace_eq_nil {s : List UInt8} : whitespace s = [] ↔ Ws s := by
  constructor
  · intro h
    obtain ⟨ws, hws, hs⟩ := exists_whitespace s
    rw [h, List.append_nil] at hs
    rw [hs]
    exact hws
  · intro h
    rw [← List.append_nil s, whitespace_append h]
    rfl

lemma length_whitespace_le (s : List UInt8) : (whitespace s).length ≤ s.length :=
  List.length_dropWhile_le isBlank s

/-- White space ends before a character that is none. -/
lemma lt_length_whitespace (s t : List UInt8) {b : UInt8} (hb : isBlank b = false) :
    t.length < (whitespace (s ++ b :: t)).length := by
  have hself : whitespace (b :: t) = b :: t := NoWs.whitespace (by rintro _ ⟨⟩; exact hb)
  rw [whitespace, List.dropWhile_append]
  split
  · rw [show (b :: t).dropWhile isBlank = b :: t from hself]
    simp
  · simp
    omega

lemma exists_digits (s : List UInt8) :
    ∃ digits, (∀ b ∈ digits, Digit b) ∧ s = digits ++ s.dropWhile isDigit := by
  refine ⟨s.takeWhile isDigit, fun b hb => ?_, List.takeWhile_append_dropWhile.symm⟩
  exact isDigit_iff.mp (List.mem_takeWhile_imp hb)

/-! ### Strings -/

lemma jsonStringRest_sound {s t : List UInt8} (h : jsonStringRest s = some t) :
    ∃ chars, Chars chars ∧ s = chars ++ 0x22 :: t := by
  fun_induction jsonStringRest s with
  | case1 => cases h
  | case2 a b c d s hex ih =>
    simp only [Bool.and_eq_true, isXDigit_iff] at hex
    obtain ⟨chars, hchars, rfl⟩ := ih h
    exact ⟨_, .unicode hex.1.1.1 hex.1.1.2 hex.1.2 hex.2 hchars, rfl⟩
  | case3 => cases h
  | case4 ch s _ hescape ih =>
    obtain ⟨chars, hchars, rfl⟩ := ih h
    exact ⟨_, .escape (isEscape_iff.mp hescape) hchars, rfl⟩
  | case5 => cases h
  | case6 s =>
    cases h
    exact ⟨[], .nil, rfl⟩
  | case7 => cases h
  | case8 ch s _ _ hquote hplain ih =>
    simp only [Bool.or_eq_true, decide_eq_true_eq, not_or] at hplain
    obtain ⟨chars, hchars, rfl⟩ := ih h
    exact ⟨_, .plain (UInt8.not_lt.mp hplain.1) hquote hplain.2 hchars, rfl⟩

lemma jsonStringRest_complete {chars : List UInt8} (h : Chars chars) (t : List UInt8) :
    jsonStringRest (chars ++ 0x22 :: t) = some t := by
  induction h with
  | nil => simp [jsonStringRest]
  | @plain b s control quote backslash rest ih =>
    rw [List.cons_append, jsonStringRest]
    · have hcontrol : ¬ b < 32 := UInt8.not_lt.mpr control
      rw [if_neg quote]
      simp [hcontrol, backslash, ih]
    · rintro _ _ _ _ _ rfl
      exact absurd rfl backslash
    · rintro _ _ rfl
      exact absurd rfl backslash
  | @escape b s escaped rest ih =>
    rw [List.cons_append, List.cons_append, jsonStringRest]
    · rw [if_pos (isEscape_iff.mpr escaped), ih]
    · rintro _ _ _ _ _ rfl
      exact absurd escaped (by simp [Escaped])
  | @unicode a b c d s ha hb hc hd rest ih =>
    simp only [List.cons_append, jsonStringRest]
    simp [isXDigit_iff.mpr ha, isXDigit_iff.mpr hb, isXDigit_iff.mpr hc, isXDigit_iff.mpr hd, ih]

lemma jsonString_sound {s t : List UInt8} (h : jsonString s = some t) :
    ∃ text, Str text ∧ s = text ++ t := by
  unfold jsonString at h
  split at h
  next rest =>
    obtain ⟨chars, hchars, rfl⟩ := jsonStringRest_sound h
    exact ⟨_, ⟨chars, hchars, rfl⟩, by simp⟩
  next => cases h

lemma jsonString_complete {text : List UInt8} (h : Str text) (t : List UInt8) :
    jsonString (text ++ t) = some t := by
  obtain ⟨chars, hchars, rfl⟩ := h
  simp only [List.cons_append, List.append_assoc, jsonString]
  exact jsonStringRest_complete hchars t

/-! ### Numbers -/

def skipMinus (s : List UInt8) : List UInt8 := if s.head? = some 45 then s.tail else s

def readWhole : List UInt8 → Option (List UInt8)
  | 48 :: s => some s
  | d :: s  => if isDigit d then some (s.dropWhile isDigit) else none
  | []      => none

def readFrac : List UInt8 → Option (List UInt8)
  | 46 :: d :: s => if isDigit d then some (s.dropWhile isDigit) else none
  | [46]         => none
  | s            => some s

def skipSign (s : List UInt8) : List UInt8 :=
  if s.head? = some 43 ∨ s.head? = some 45 then s.tail else s

def readExp (s : List UInt8) : Option (List UInt8) :=
  if s.head? = some 101 ∨ s.head? = some 69 then
    match skipSign s.tail with
    | d :: s => if isDigit d then some (s.dropWhile isDigit) else none
    | []     => none
  else some s

lemma jsonNumber_eq (s : List UInt8) :
    jsonNumber s = (readWhole (skipMinus s)).bind fun s => (readFrac s).bind readExp := by
  have hfrac : ∀ s, (match s with
      | 46 :: d :: s => if isDigit d then (do let s ← some (s.dropWhile isDigit); readExp s)
          else (do let s ← none; readExp s)
      | [46] => (do let s ← none; readExp s)
      | s => (do let s ← some s; readExp s)) = (readFrac s).bind readExp := by
    intro s
    fun_cases readFrac s <;> simp_all
  have hwhole : ∀ s, (match s with
      | 48 :: s => (do let s ← some s; (readFrac s).bind readExp)
      | d :: s => if isDigit d then (do let s ← some (s.dropWhile isDigit); (readFrac s).bind readExp)
          else (do let s ← none; (readFrac s).bind readExp)
      | [] => (do let s ← none; (readFrac s).bind readExp)) =
        (readWhole s).bind fun s => (readFrac s).bind readExp := by
    intro s
    fun_cases readWhole s <;> simp_all
  rw [← hwhole]
  simp only [← hfrac]
  rfl

lemma readWhole_sound {s t : List UInt8} (h : readWhole s = some t) :
    ∃ whole, Whole whole ∧ s = whole ++ t := by
  unfold readWhole at h
  split at h
  next rest =>
    cases h
    exact ⟨[0x30], .zero, rfl⟩
  next d rest hzero =>
    split_ifs at h with hdigit
    cases h
    obtain ⟨digits, hdigits, heq⟩ := exists_digits rest
    refine ⟨d :: digits, .nonzero (isDigit_iff.mp hdigit) ?_ hdigits, ?_⟩
    · rintro rfl
      exact hzero rfl
    · rw [List.cons_append, ← heq]
  next => cases h

lemma readWhole_complete {whole t : List UInt8} (h : Whole whole)
    (ht : ∀ b ∈ t.head?, isDigit b = false) : readWhole (whole ++ t) = some t := by
  cases h with
  | zero => rfl
  | @nonzero d s digit leading rest =>
    rw [List.cons_append, readWhole]
    · rw [if_pos (isDigit_iff.mpr digit),
        dropWhile_run (fun b hb => isDigit_iff.mpr (rest b hb)) ht]
    · rintro rfl
      exact leading rfl

lemma readFrac_sound {s t : List UInt8} (h : readFrac s = some t) :
    ∃ frac, Frac frac ∧ s = frac ++ t := by
  unfold readFrac at h
  split at h
  next d rest =>
    split_ifs at h with hdigit
    cases h
    obtain ⟨digits, hdigits, heq⟩ := exists_digits rest
    refine ⟨0x2E :: d :: digits, .inr ⟨d :: digits, ⟨by simp, ?_⟩, rfl⟩, ?_⟩
    · intro b hb
      rcases List.mem_cons.mp hb with rfl | hb
      · exact isDigit_iff.mp hdigit
      · exact hdigits b hb
    · rw [List.cons_append, List.cons_append, ← heq]
  next => cases h
  next =>
    cases h
    exact ⟨[], .inl rfl, rfl⟩

lemma readFrac_complete {frac t : List UInt8} (h : Frac frac)
    (ht : ∀ b ∈ t.head?, isDigit b = false ∧ b ≠ 46) : readFrac (frac ++ t) = some t := by
  rcases h with rfl | ⟨digits, ⟨hne, hdigits⟩, rfl⟩
  · rw [List.nil_append, readFrac]
    · rintro d rest rfl
      exact (ht 46 rfl).2 rfl
    · rintro rfl
      exact (ht 46 rfl).2 rfl
  · obtain ⟨d, rest, rfl⟩ := List.exists_cons_of_ne_nil hne
    have hrest : ∀ b ∈ rest, isDigit b = true :=
      fun b hb => isDigit_iff.mpr (hdigits b (List.mem_cons_of_mem _ hb))
    rw [List.cons_append, List.cons_append, readFrac,
      if_pos (isDigit_iff.mpr (hdigits d List.mem_cons_self)),
      dropWhile_run hrest fun b hb => (ht b hb).1]

lemma readExp_sound {s t : List UInt8} (h : readExp s = some t) : ∃ exp, Exp exp ∧ s = exp ++ t := by
  unfold readExp at h
  split at h
  next hexp =>
    obtain ⟨e, rest, rfl⟩ : ∃ e rest, s = e :: rest := by
      cases s with
      | nil => simp at hexp
      | cons e rest => exact ⟨e, rest, rfl⟩
    have he : e = 0x65 ∨ e = 0x45 := by simpa using hexp
    obtain ⟨sign, hsign, hskip⟩ : ∃ sign, (sign = [] ∨ sign = [0x2B] ∨ sign = [0x2D]) ∧
        rest = sign ++ skipSign rest := by
      unfold skipSign
      split_ifs with hsign
      · cases rest with
        | nil => simp at hsign
        | cons b rest =>
          refine ⟨[b], ?_, rfl⟩
          simpa using hsign
      · exact ⟨[], .inl rfl, rfl⟩
    rw [List.tail_cons] at h
    generalize skipSign rest = u at h hskip
    split at h
    next d rest' =>
      split_ifs at h with hdigit
      cases h
      obtain ⟨digits, hdigits, heq⟩ := exists_digits rest'
      refine ⟨e :: (sign ++ d :: digits), .inr ⟨e, sign, d :: digits, he, hsign, ⟨by simp, ?_⟩, rfl⟩,
        ?_⟩
      · intro b hb
        rcases List.mem_cons.mp hb with rfl | hb
        · exact isDigit_iff.mp hdigit
        · exact hdigits b hb
      · rw [hskip, List.cons_append, List.append_assoc, List.cons_append, ← heq]
    next => cases h
  next =>
    cases h
    exact ⟨[], .inl rfl, rfl⟩

lemma readExp_complete {exp t : List UInt8} (h : Exp exp)
    (ht : ∀ b ∈ t.head?, isDigit b = false ∧ b ≠ 101 ∧ b ≠ 69) : readExp (exp ++ t) = some t := by
  rcases h with rfl | ⟨e, sign, digits, he, hsign, ⟨hne, hdigits⟩, rfl⟩
  · rw [List.nil_append, readExp, if_neg]
    rintro (hhead | hhead)
    · exact (ht 101 hhead).2.1 rfl
    · exact (ht 69 hhead).2.2 rfl
  · obtain ⟨d, rest, rfl⟩ := List.exists_cons_of_ne_nil hne
    have hdigit : Digit d := hdigits d List.mem_cons_self
    have hrest : ∀ b ∈ rest, isDigit b = true :=
      fun b hb => isDigit_iff.mpr (hdigits b (List.mem_cons_of_mem _ hb))
    -- a digit is no sign
    have hd : d ≠ 43 ∧ d ≠ 45 := by
      constructor <;> rintro rfl <;> exact absurd hdigit (by simp [Digit])
    have hskip : skipSign (sign ++ d :: rest ++ t) = d :: (rest ++ t) := by
      rcases hsign with rfl | rfl | rfl
      · simp [skipSign, hd.1, hd.2]
      · simp [skipSign]
      · simp [skipSign]
    rw [List.cons_append, readExp, if_pos (by simpa using he), List.tail_cons, hskip]
    simp only [isDigit_iff.mpr hdigit, if_true]
    rw [dropWhile_run hrest fun b hb => (ht b hb).1]

/-- The text does not go on with a character of a number. -/
def EndsNumber (t : List UInt8) : Prop :=
  ∀ b ∈ t.head?, isDigit b = false ∧ b ≠ 46 ∧ b ≠ 101 ∧ b ≠ 69

lemma jsonNumber_sound {s t : List UInt8} (h : jsonNumber s = some t) :
    ∃ number, Number number ∧ s = number ++ t := by
  rw [jsonNumber_eq] at h
  simp only [Option.bind_eq_some_iff] at h
  obtain ⟨u, hu, v, hv, ht⟩ := h
  obtain ⟨whole, hwhole, heq⟩ := readWhole_sound hu
  obtain ⟨frac, hfrac, rfl⟩ := readFrac_sound hv
  obtain ⟨exp, hexp, rfl⟩ := readExp_sound ht
  obtain ⟨minus, hminus, hs⟩ : ∃ minus, (minus = [] ∨ minus = [0x2D]) ∧ s = minus ++ skipMinus s := by
    unfold skipMinus
    split_ifs with hminus
    · cases s with
      | nil => simp at hminus
      | cons b s =>
        refine ⟨[b], .inr ?_, rfl⟩
        simpa using hminus
    · exact ⟨[], .inl rfl, rfl⟩
  refine ⟨_, ⟨minus, whole, frac, exp, hminus, hwhole, hfrac, hexp, rfl⟩, ?_⟩
  rw [hs, heq]
  simp

lemma jsonNumber_complete {number t : List UInt8} (h : Number number) (ht : EndsNumber t) :
    jsonNumber (number ++ t) = some t := by
  obtain ⟨minus, whole, frac, exp, hminus, hwhole, hfrac, hexp, rfl⟩ := h
  have hskip : skipMinus (minus ++ (whole ++ (frac ++ (exp ++ t)))) = whole ++ (frac ++ (exp ++ t)) := by
    rcases hminus with rfl | rfl
    · cases hwhole with
      | zero => rfl
      | @nonzero d s digit leading rest =>
        have hd : d ≠ 45 := by
          rintro rfl
          exact absurd digit (by simp [Digit])
        simp [skipMinus, hd]
    · rfl
  have hexpends : ∀ b ∈ (exp ++ t).head?, isDigit b = false ∧ b ≠ 46 := by
    rcases hexp with rfl | ⟨e, sign, digits, he, -, -, rfl⟩
    · exact fun b hb => ⟨(ht b hb).1, (ht b hb).2.1⟩
    · rintro b ⟨⟩
      rcases he with rfl | rfl <;> decide
  have hfracends : ∀ b ∈ (frac ++ (exp ++ t)).head?, isDigit b = false := by
    rcases hfrac with rfl | ⟨digits, -, rfl⟩
    · exact fun b hb => (hexpends b hb).1
    · rintro b ⟨⟩
      decide
  rw [jsonNumber_eq, List.append_assoc, List.append_assoc, List.append_assoc, hskip,
    readWhole_complete hwhole hfracends, Option.bind_some, readFrac_complete hfrac hexpends,
    Option.bind_some, readExp_complete hexp fun b hb => ⟨(ht b hb).1, (ht b hb).2.2⟩]

/-! ### Members -/

/-- The brackets of an object or of an array. -/
def container (object : Bool) : Container := if object then .object else .array

lemma closing_container (object : Bool) :
    (container object).closing = if object then 125 else 93 := by
  cases object <;> rfl

def readColon : List UInt8 → Option (List UInt8)
  | 58 :: s => some s
  | _       => none

lemma closing_not_blank (object : Bool) : isBlank (container object).closing = false := by
  cases object <;> decide

lemma comma_not_blank : isBlank 0x2C = false := by decide

/-- The name of a member and its colon, if the members have names. -/
def readName (object : Bool) (s : List UInt8) : Option (List UInt8) :=
  if object then (jsonString s).bind fun s => readColon (whitespace s) else some s

lemma jsonMembers_succ (value : List UInt8 → Option (List UInt8)) (object : Bool) (turns : Nat)
    (s : List UInt8) : jsonMembers value object (turns + 1) s =
      (readName object s).bind fun s => (value s).bind fun s =>
        match whitespace s with
        | next :: s =>
          if next = (container object).closing then some s
          else if next ≠ 44 then none
          else jsonMembers value object turns (whitespace s)
        | [] => none := by
  rw [jsonMembers]
  cases object with
  | false => rfl
  | true =>
    simp only [readName, if_true]
    cases jsonString s with
    | none => rfl
    | some u =>
      simp only [Option.bind_some, bind]
      generalize whitespace u = w
      fun_cases readColon w
      · rfl
      next hcolon =>
        split
        · exact absurd rfl (hcolon _)
        · rfl

lemma readName_sound {object : Bool} {s t : List UInt8} (h : readName object s = some t) :
    ∃ name, Name (container object) name ∧ s = name ++ t := by
  cases object with
  | false =>
    cases h
    exact ⟨[], rfl, rfl⟩
  | true =>
    simp only [readName, if_true, Option.bind_eq_some_iff] at h
    obtain ⟨u, hstring, h⟩ := h
    obtain ⟨name, hname, rfl⟩ := jsonString_sound hstring
    obtain ⟨ws, hws, heq⟩ := exists_whitespace u
    unfold readColon at h
    split at h
    next rest hrest =>
      cases h
      refine ⟨name ++ ws ++ [0x3A], ⟨name, ws, hname, hws, rfl⟩, ?_⟩
      rw [heq, hrest]
      simp
    next => cases h

lemma readName_complete {object : Bool} {name : List UInt8} (h : Name (container object) name)
    (t : List UInt8) : readName object (name ++ t) = some t := by
  cases object with
  | false =>
    rw [show name = [] from h]
    rfl
  | true =>
    obtain ⟨text, ws, htext, hws, rfl⟩ := h
    have hcolon : whitespace (ws ++ 0x3A :: t) = 0x3A :: t := by
      rw [whitespace_append hws]
      rfl
    simp only [readName, if_true, List.append_assoc, List.singleton_append,
      jsonString_complete htext, Option.bind_some, hcolon, readColon]

/-- What a value may be followed by. -/
def Delimited (t : List UInt8) : Prop :=
  ∀ b ∈ t.head?, isBlank b = true ∨ b = 44 ∨ b = 93 ∨ b = 125

lemma Delimited.of_ws {ws t : List UInt8} (hws : Ws ws) (ht : Delimited t) :
    Delimited (ws ++ t) := by
  cases ws with
  | nil => exact ht
  | cons b ws =>
    rintro _ ⟨⟩
    exact .inl (isBlank_iff.mpr (hws b List.mem_cons_self))

lemma Delimited.endsNumber {t : List UInt8} (h : Delimited t) : EndsNumber t := by
  intro b hb
  rcases h b hb with hblank | rfl | rfl | rfl
  · rcases isBlank_iff.mp hblank with rfl | rfl | rfl | rfl <;> decide
  · decide
  · decide
  · decide

section Members

variable {V : List UInt8 → Prop} {value : List UInt8 → Option (List UInt8)}

lemma jsonMembers_sound
    (hvalue : ∀ s t, value s = some t → ∃ ws v, Ws ws ∧ V v ∧ s = ws ++ v ++ t)
    {object : Bool} {turns : Nat} {s t : List UInt8}
    (h : jsonMembers value object turns s = some t) : ∃ elements,
      Elements V (container object) elements ∧ s = elements ++ (container object).closing :: t := by
  induction turns generalizing s with
  | zero => cases h
  | succ turns ih =>
    rw [jsonMembers_succ] at h
    simp only [Option.bind_eq_some_iff] at h
    obtain ⟨u, hu, rest, hrest, h⟩ := h
    obtain ⟨name, hname, rfl⟩ := readName_sound hu
    obtain ⟨lead, v, hlead, hv, rfl⟩ := hvalue _ _ hrest
    obtain ⟨trail, htrail, heq⟩ := exists_whitespace rest
    have helement : Element V (container object) (name ++ lead ++ v ++ trail) :=
      ⟨name, lead, v, trail, hname, hlead, hv, htrail, rfl⟩
    split at h
    next next_ after hafter =>
      rw [heq, hafter]
      split_ifs at h with hclose hcomma
      · cases h
        refine ⟨_, .last helement, ?_⟩
        rw [hclose]
        simp
      · obtain ⟨gap, hgap, hafter⟩ := exists_whitespace after
        obtain ⟨elements, helements, hmore⟩ := ih h
        refine ⟨_, .more helement hgap helements, ?_⟩
        rw [not_not.mp hcomma, hafter, hmore]
        simp
    next => cases h

lemma jsonMembers_complete
    (hvalue : ∀ ws v t, Ws ws → V v → Delimited t → value (ws ++ v ++ t) = some t)
    (hblank : ∀ s, value (whitespace s) = value s) {object : Bool} {elements : List UInt8}
    (h : Elements V (container object) elements) {t : List UInt8} {turns : Nat}
    (hturns : (whitespace (elements ++ (container object).closing :: t)).length ≤ turns) :
    jsonMembers value object turns (whitespace (elements ++ (container object).closing :: t)) =
      some t := by
  have hclosing : ∀ t, whitespace ((container object).closing :: t) =
      (container object).closing :: t := by
    intro t
    cases object <;> rfl
  have hfollow : ∀ t, Delimited ((container object).closing :: t) := by
    rintro t _ ⟨⟩
    cases object
    · exact .inr (.inr (.inl rfl))
    · exact .inr (.inr (.inr rfl))
  -- an element is read up to the white space behind its value
  have helement : ∀ {s u}, Element V (container object) s → Delimited u → ∃ trail, Ws trail ∧
      (readName object (whitespace (s ++ u))).bind value = some (trail ++ u) := by
    rintro s u ⟨name, lead, v, trail, hname, hlead, hv, htrail, rfl⟩ hu
    refine ⟨trail, htrail, ?_⟩
    have hread : value (lead ++ v ++ (trail ++ u)) = some (trail ++ u) :=
      hvalue lead v _ hlead hv (.of_ws htrail hu)
    cases object with
    | false =>
      obtain rfl : name = [] := hname
      rw [readName, if_neg Bool.false_ne_true, Option.bind_some, hblank]
      simpa using hread
    | true =>
      have hnows : whitespace (name ++ lead ++ v ++ trail ++ u) =
          name ++ (lead ++ v ++ (trail ++ u)) := by
        obtain ⟨_, _, ⟨chars, -, rfl⟩, -, rfl⟩ := hname
        simp [whitespace, isBlank]
      rw [hnows, readName_complete hname, Option.bind_some, hread]
  induction h generalizing turns with
  | @last s element =>
    have hlength := lt_length_whitespace s t (closing_not_blank object)
    obtain ⟨turns, rfl⟩ : ∃ n, turns = n + 1 := ⟨turns - 1, by omega⟩
    obtain ⟨trail, htrail, hread⟩ := helement element (hfollow t)
    rw [jsonMembers_succ, ← Option.bind_assoc, hread, Option.bind_some, whitespace_append htrail,
      hclosing]
    simp
  | @more s ws rest element gap others ih =>
    rw [List.append_assoc, List.cons_append, List.append_assoc] at hturns ⊢
    have hlength := lt_length_whitespace s (ws ++ (rest ++ (container object).closing :: t))
      comma_not_blank
    obtain ⟨turns, rfl⟩ : ∃ n, turns = n + 1 := ⟨turns - 1, by omega⟩
    have hcomma : Delimited (0x2C :: (ws ++ (rest ++ (container object).closing :: t))) := by
      rintro _ ⟨⟩
      exact .inr (.inl rfl)
    obtain ⟨trail, htrail, hread⟩ := helement element hcomma
    rw [jsonMembers_succ, ← Option.bind_assoc, hread, Option.bind_some,
      whitespace_append htrail]
    have hne : (0x2C : UInt8) ≠ (container object).closing := by cases object <;> decide
    have hskip : whitespace (0x2C :: (ws ++ (rest ++ (container object).closing :: t))) =
        0x2C :: (ws ++ (rest ++ (container object).closing :: t)) := rfl
    have hle := length_whitespace_le (rest ++ (container object).closing :: t)
    rw [hskip]
    simp only [if_neg hne, ne_eq, not_true_eq_false, if_false, whitespace_append gap]
    apply ih
    rw [List.length_append] at hlength
    omega

end Members

/-! ### Values -/

/-- The first character of a value. -/
def Starts (b : UInt8) : Prop :=
  b = 0x22 ∨ b = 0x7B ∨ b = 0x5B ∨ b = 0x74 ∨ b = 0x66 ∨ b = 0x6E ∨ b = 0x2D ∨ Digit b

lemma Number.starts {s : List UInt8} (h : Number s) :
    ∃ b rest, s = b :: rest ∧ (b = 0x2D ∨ Digit b) := by
  obtain ⟨minus, whole, frac, exp, hminus, hwhole, -, -, rfl⟩ := h
  rcases hminus with rfl | rfl
  · cases hwhole with
    | zero => exact ⟨_, _, rfl, .inr (by simp [Digit])⟩
    | nonzero digit => exact ⟨_, _, rfl, .inr digit⟩
  · exact ⟨_, _, rfl, .inl rfl⟩

lemma Flat.starts {s : List UInt8} (h : Flat s) : ∃ b rest, s = b :: rest ∧ Starts b := by
  cases h with
  | str h =>
    obtain ⟨chars, -, rfl⟩ := h
    exact ⟨_, _, rfl, by simp [Starts]⟩
  | number h =>
    obtain ⟨b, rest, rfl, hb⟩ := Number.starts h
    refine ⟨b, rest, rfl, ?_⟩
    unfold Starts
    tauto
  | literal h => rcases h with rfl | rfl | rfl <;> exact ⟨_, _, rfl, by simp [Starts]⟩
  | empty k h => cases k <;> exact ⟨_, _, rfl, by simp [Starts, Container.opening]⟩

lemma Value.starts {n : Nat} {s : List UInt8} (h : Value n s) :
    ∃ b rest, s = b :: rest ∧ Starts b := by
  rcases value_iff.mp h with h | ⟨k, ws, elements, -, -, rfl⟩
  · exact Flat.starts h
  · cases k <;> exact ⟨_, _, rfl, by simp [Starts, Container.opening]⟩

lemma Inner.starts {n : Nat} {s : List UInt8} (h : Inner n s) :
    ∃ b rest, s = b :: rest ∧ Starts b := by
  cases n with
  | zero => exact h.elim
  | succ n => exact Value.starts h

lemma Starts.not_blank {b : UInt8} (h : Starts b) : isBlank b = false := by
  rw [← Bool.not_eq_true, isBlank_iff]
  rcases h with rfl | rfl | rfl | rfl | rfl | rfl | rfl | hdigit
  on_goal 8 => rintro (rfl | rfl | rfl | rfl) <;> simp [Digit] at hdigit
  all_goals decide

lemma Starts.not_closing {b : UInt8} (h : Starts b) (k : Container) : b ≠ k.closing := by
  rcases h with rfl | rfl | rfl | rfl | rfl | rfl | rfl | hdigit
  on_goal 8 => cases k <;> rintro rfl <;> simp [Digit, Container.closing] at hdigit
  all_goals cases k <;> decide

lemma opening_ne_quote (k : Container) : k.opening ≠ 34 := by cases k <;> decide

lemma opening_eq (k : Container) : k.opening = 123 ∨ k.opening = 91 := by cases k <;> decide

lemma container_opening (k : Container) : container (k.opening = 123) = k := by cases k <;> rfl

/-- Elements do not begin with the bracket that closes them. -/
lemma Elements.head?_ne {V : List UInt8 → Prop} {k : Container} {elements : List UInt8}
    (h : Elements V k elements) (hV : ∀ v, V v → ∃ b rest, v = b :: rest ∧ Starts b)
    (t : List UInt8) : (whitespace (elements ++ t)).head? ≠ some k.closing := by
  have helement : ∀ {s u}, Element V k s → (whitespace (s ++ u)).head? ≠ some k.closing := by
    rintro s u ⟨name, lead, v, trail, hname, hlead, hv, -, rfl⟩
    obtain ⟨b, rest, rfl, hb⟩ := hV v hv
    cases k with
    | object =>
      obtain ⟨_, _, ⟨chars, -, rfl⟩, -, rfl⟩ := hname
      simp [whitespace, isBlank, Container.closing]
    | array =>
      obtain rfl : name = [] := hname
      have hskip : whitespace ([] ++ lead ++ b :: rest ++ trail ++ u) = b :: (rest ++ trail ++ u) := by
        simp only [List.nil_append, List.append_assoc, List.cons_append, whitespace_append hlead]
        exact NoWs.whitespace (by rintro _ ⟨⟩; exact hb.not_blank)
      rw [hskip, List.head?_cons, ne_eq, Option.some_inj]
      exact hb.not_closing _
  cases h with
  | last element => exact helement element
  | more element gap others =>
    rw [List.append_assoc]
    exact helement element

/-- The literal at the start of a text. -/
def findLiteral (s : List UInt8) : Option String :=
  ["true", "false", "null"].find? fun word => ascii word <+: s

lemma findLiteral_sound {s : List UInt8} {word : String} (h : findLiteral s = some word) :
    ∃ literal, Literal literal ∧ s = literal ++ s.drop word.length := by
  have hpre : ascii word <+: s := by simpa using List.find?_some h
  have hword : word = "true" ∨ word = "false" ∨ word = "null" := by
    simpa using List.mem_of_find?_eq_some h
  obtain ⟨rest, rfl⟩ := hpre
  have hlength : (ascii word).length = word.length := by
    rcases hword with rfl | rfl | rfl <;> decide
  refine ⟨ascii word, ?_, by rw [← hlength, List.drop_left]⟩
  rcases hword with rfl | rfl | rfl
  · exact .inl (by decide)
  · exact .inr (.inl (by decide))
  · exact .inr (.inr (by decide))

lemma findLiteral_complete {literal : List UInt8} (h : Literal literal) (t : List UInt8) :
    ∃ word, findLiteral (literal ++ t) = some word ∧ (literal ++ t).drop word.length = t := by
  have htrue : ascii "true" = [0x74, 0x72, 0x75, 0x65] := by decide
  have hfalse : ascii "false" = [0x66, 0x61, 0x6C, 0x73, 0x65] := by decide
  have hnull : ascii "null" = [0x6E, 0x75, 0x6C, 0x6C] := by decide
  rcases h with rfl | rfl | rfl
  · exact ⟨"true", by simp [findLiteral, htrue], rfl⟩
  · exact ⟨"false", by simp [findLiteral, htrue, hfalse], rfl⟩
  · exact ⟨"null", by simp [findLiteral, htrue, hfalse, hnull], rfl⟩

/-- Each literal has its own first character. -/
lemma findLiteral_eq_none {b : UInt8} {s : List UInt8} (h : b = 0x2D ∨ Digit b) :
    findLiteral (b :: s) = none := by
  have htrue : ascii "true" = [0x74, 0x72, 0x75, 0x65] := by decide
  have hfalse : ascii "false" = [0x66, 0x61, 0x6C, 0x73, 0x65] := by decide
  have hnull : ascii "null" = [0x6E, 0x75, 0x6C, 0x6C] := by decide
  have hne : b ≠ 0x74 ∧ b ≠ 0x66 ∧ b ≠ 0x6E := by
    rcases h with rfl | h
    · decide
    · refine ⟨?_, ?_, ?_⟩ <;> rintro rfl <;> simp [Digit] at h
  simp [findLiteral, htrue, hfalse, hnull, Ne.symm hne.1, Ne.symm hne.2.1, Ne.symm hne.2.2]

lemma jsonValue_cons {n : Nat} {s rest : List UInt8} {b : UInt8} (h : whitespace s = b :: rest) :
    jsonValue (n + 1) s =
      if b = 34 then jsonString (b :: rest)
      else if b = 123 ∨ b = 91 then
        if (whitespace rest).head? = some (container (b = 123)).closing then
          some (whitespace rest).tail
        else jsonMembers (jsonValue n) (b = 123) (whitespace rest).length (whitespace rest)
      else match findLiteral (b :: rest) with
        | some word => some ((b :: rest).drop word.length)
        | none      => jsonNumber (b :: rest) := by
  rw [jsonValue, h]
  simp only [closing_container, decide_eq_true_eq]
  rfl

lemma jsonValue_whitespace (n : Nat) (s : List UInt8) :
    jsonValue n (whitespace s) = jsonValue n s := by
  cases n with
  | zero => rfl
  | succ n => rw [jsonValue, jsonValue, (noWs_whitespace s).whitespace]

lemma jsonValue_nil {n : Nat} {s : List UInt8} (h : whitespace s = []) : jsonValue n s = none := by
  cases n with
  | zero => rfl
  | succ n => rw [jsonValue, h]

/-- What the reader takes off a text is white space and a value. -/
lemma jsonValue_sound {n : Nat} {s t : List UInt8} (h : jsonValue n s = some t) :
    ∃ ws v, Ws ws ∧ Inner n v ∧ s = ws ++ v ++ t := by
  induction n generalizing s t with
  | zero => cases h
  | succ n ih =>
    obtain ⟨lead, hlead, hs⟩ := exists_whitespace s
    cases hw : whitespace s with
    | nil =>
      rw [jsonValue_nil hw] at h
      cases h
    | cons b rest =>
      suffices hvalue : ∃ v, Value n v ∧ b :: rest = v ++ t by
        obtain ⟨v, hv, heq⟩ := hvalue
        refine ⟨lead, v, hlead, hv, ?_⟩
        rw [List.append_assoc, ← heq, ← hw]
        exact hs
      rw [jsonValue_cons hw] at h
      split_ifs at h with hquote hopen hclose
      · obtain ⟨text, htext, heq⟩ := jsonString_sound h
        exact ⟨text, value_iff.mpr (.inl (.str htext)), heq⟩
      · cases h
        obtain ⟨ws, hws, hrest⟩ := exists_whitespace rest
        have hb : b = (container (b = 123)).opening := by
          rcases hopen with rfl | rfl <;> rfl
        refine ⟨_, value_iff.mpr (.inl (.empty (container (b = 123)) hws)), ?_⟩
        have htail : whitespace rest = (container (b = 123)).closing :: (whitespace rest).tail :=
          (List.cons_head?_tail hclose).symm
        rw [← hb, List.cons_append, List.append_assoc, List.singleton_append, ← htail, ← hrest]
      · obtain ⟨ws, hws, hrest⟩ := exists_whitespace rest
        obtain ⟨elements, helements, heq⟩ := jsonMembers_sound (fun s t => ih) h
        have hb : b = (container (b = 123)).opening := by
          rcases hopen with rfl | rfl <;> rfl
        refine ⟨_, value_iff.mpr (.inr ⟨_, ws, elements, hws, helements, rfl⟩), ?_⟩
        rw [← hb, hrest, heq]
        simp
      · split at h
        next word hword =>
          cases h
          obtain ⟨literal, hliteral, heq⟩ := findLiteral_sound hword
          exact ⟨literal, value_iff.mpr (.inl (.literal hliteral)), heq⟩
        next =>
          obtain ⟨number, hnumber, heq⟩ := jsonNumber_sound h
          exact ⟨number, value_iff.mpr (.inl (.number hnumber)), heq⟩

/-- The reader takes every value that something delimits. -/
lemma jsonValue_complete {n : Nat} {ws v t : List UInt8} (hws : Ws ws) (hv : Inner n v)
    (ht : Delimited t) : jsonValue n (ws ++ v ++ t) = some t := by
  induction n generalizing ws v t with
  | zero => exact hv.elim
  | succ n ih =>
    obtain ⟨b, rest, rfl, hb⟩ := Value.starts hv
    have hskip : whitespace (ws ++ (b :: rest) ++ t) = b :: (rest ++ t) := by
      rw [List.append_assoc, whitespace_append hws]
      exact NoWs.whitespace (by rintro _ ⟨⟩; exact hb.not_blank)
    rw [jsonValue_cons hskip]
    rcases value_iff.mp hv with hflat | ⟨k, gap, elements, hgap, helements, heq⟩
    · cases hflat with
      | str h =>
        have hquote : b = 34 := by
          obtain ⟨chars, -, heq⟩ := h
          exact (List.cons.inj heq).1
        rw [if_pos hquote]
        exact jsonString_complete h t
      | number h =>
        obtain ⟨c, rest', heq, hc⟩ := Number.starts h
        obtain ⟨rfl, rfl⟩ := List.cons.inj heq
        have hne : b ≠ 34 ∧ b ≠ 123 ∧ b ≠ 91 := by
          rcases hc with rfl | hc
          · decide
          · refine ⟨?_, ?_, ?_⟩ <;> rintro rfl <;> simp [Digit] at hc
        rw [if_neg hne.1, if_neg (by simp [hne.2.1, hne.2.2]), findLiteral_eq_none hc]
        exact jsonNumber_complete h ht.endsNumber
      | literal h =>
        obtain ⟨word, hword, hdrop⟩ := findLiteral_complete h t
        have hne : b ≠ 34 ∧ b ≠ 123 ∧ b ≠ 91 := by
          rcases h with heq | heq | heq <;> obtain ⟨rfl, -⟩ := List.cons.inj heq <;> decide
        rw [List.cons_append] at hword hdrop
        rw [if_neg hne.1, if_neg (by simp [hne.2.1, hne.2.2]), hword]
        simp only [hdrop]
      | empty k hgap =>
        rename_i gap
        have hclose : whitespace (gap ++ [k.closing] ++ t) = k.closing :: t := by
          rw [List.append_assoc, whitespace_append hgap]
          cases k <;> rfl
        rw [if_neg (opening_ne_quote k), if_pos (opening_eq k), container_opening, hclose]
        simp
    · obtain ⟨rfl, rfl⟩ := List.cons.inj heq
      have hclose : whitespace (gap ++ elements ++ [k.closing] ++ t) =
          whitespace (elements ++ k.closing :: t) := by
        simp only [List.append_assoc, whitespace_append hgap, List.singleton_append]
      have hhead : (whitespace (elements ++ k.closing :: t)).head? ≠ some k.closing :=
        Elements.head?_ne helements (fun v hv => Inner.starts hv) _
      rw [if_neg (opening_ne_quote k), if_pos (opening_eq k), hclose, container_opening,
        if_neg hhead]
      have hmembers := jsonMembers_complete (fun ws v t => ih) (jsonValue_whitespace n)
        ((container_opening k).symm ▸ helements) (t := t) le_rfl
      rw [container_opening] at hmembers
      exact hmembers

/-- `rel_json_syntax_valid` accepts exactly the texts of the grammar. -/
lemma relJsonSyntaxValid_iff (text : List UInt8) :
    relJsonSyntaxValid text = true ↔ Text 32 text := by
  unfold relJsonSyntaxValid
  constructor
  · intro h
    split at h
    next rest hrest =>
      obtain ⟨lead, value, hlead, hvalue, rfl⟩ := jsonValue_sound hrest
      exact ⟨lead, value, rest, hlead, hvalue, whitespace_eq_nil.mp (by simpa using h), rfl⟩
    next => cases h
  · rintro ⟨lead, value, trail, hlead, hvalue, htrail, rfl⟩
    have hdelimited : Delimited trail := by
      rw [← List.append_nil trail]
      exact .of_ws htrail (by simp [Delimited])
    rw [jsonValue_complete (n := 33) hlead hvalue hdelimited]
    simpa using whitespace_eq_nil.mpr htrail

end ZoneLite
