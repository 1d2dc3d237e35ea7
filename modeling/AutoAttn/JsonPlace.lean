import AutoAttn.JsonText

/-!
# Where the bytes of a JSON text stand

Reading a text from left to right, a byte stands outside of strings, in a string or behind a
backslash, in some number of open containers. A value ends where it began. Read on from inside a
container it ends at the same place, and read on from inside a string it ends inside one, so no
proper piece at the start or the end of an object is a value.
-/

namespace JsonText

instance (b : UInt8) : Decidable (Escaped b) :=
  inferInstanceAs (Decidable (b ∈ [0x22, 0x5C, 0x2F, 0x62, 0x66, 0x6E, 0x72, (0x74 : UInt8)]))

inductive Place where
  | outside (depth : Nat)
  | string (depth : Nat)
  | escape (depth : Nat)
deriving DecidableEq

namespace Place

def depth : Place → Nat
  | .outside d | .string d | .escape d => d

/-- The same place in `k` more containers. -/
def deeper (k : Nat) : Place → Place
  | .outside d => .outside (d + k)
  | .string d  => .string (d + k)
  | .escape d  => .escape (d + k)

/-- The place behind a byte. A backslash stands in strings only, and no container is closed that
was not opened. -/
def next : Place → UInt8 → Option Place
  | .outside d, b =>
    if b = 0x22 then some (.string d)
    else if b = 0x5C then none
    else if b = 0x7B ∨ b = 0x5B then some (.outside (d + 1))
    else if b = 0x7D ∨ b = 0x5D then
      match d with
      | 0     => none
      | d + 1 => some (.outside d)
    else some (.outside d)
  | .string d, b =>
    if b = 0x22 then some (.outside d)
    else if b = 0x5C then some (.escape d)
    else some (.string d)
  | .escape d, b => if b = 0x75 ∨ Escaped b then some (.string d) else none

/-- The place behind a text. -/
def after (place : Place) (s : List UInt8) : Option Place := s.foldlM next place

@[simp] lemma after_nil (place : Place) : place.after [] = some place := rfl

@[simp] lemma after_cons (place : Place) (b : UInt8) (s : List UInt8) :
    place.after (b :: s) = (place.next b).bind fun q => q.after s := rfl

lemma after_append (place : Place) (s t : List UInt8) :
    place.after (s ++ t) = (place.after s).bind fun q => q.after t :=
  List.foldlM_append

lemma next_deeper {place q : Place} {b : UInt8} (h : place.next b = some q) (k : Nat) :
    (place.deeper k).next b = some (q.deeper k) := by
  cases place with
  | outside d =>
    simp only [next, deeper] at h ⊢
    split_ifs at h ⊢
    · cases h; rfl
    · cases h
      rw [Nat.add_right_comm]
    · cases d with
      | zero => cases h
      | succ d =>
        cases h
        rw [Nat.add_right_comm]
    · cases h; rfl
  | string d =>
    simp only [next, deeper] at h ⊢
    split_ifs at h ⊢ <;> cases h <;> rfl
  | escape d =>
    simp only [next, deeper] at h ⊢
    split_ifs at h ⊢
    cases h
    rfl

/-- A text that can be read can be read in more containers. -/
lemma after_deeper {place q : Place} {s : List UInt8} (h : place.after s = some q) (k : Nat) :
    (place.deeper k).after s = some (q.deeper k) := by
  induction s generalizing place with
  | nil =>
    cases h
    rfl
  | cons b s ih =>
    rw [after_cons, Option.bind_eq_some_iff] at h
    obtain ⟨p, hp, h⟩ := h
    rw [after_cons, next_deeper hp, Option.bind_some, ih h]

end Place

open Place

/-! ### Texts that end where they began -/

/-- The text can be read outside of strings and ends at the place where it began. -/
def Balanced (s : List UInt8) : Prop := (Place.outside 0).after s = some (.outside 0)

lemma Balanced.after {s : List UInt8} (h : Balanced s) (d : Nat) :
    (Place.outside d).after s = some (.outside d) := by
  have := after_deeper h d
  simpa [deeper] using this

lemma Balanced.append {s t : List UInt8} (hs : Balanced s) (ht : Balanced t) :
    Balanced (s ++ t) := by
  rw [Balanced, after_append, hs, Option.bind_some]
  exact ht

lemma balanced_nil : Balanced [] := rfl

/-- A byte that is neither a quote, a backslash nor a bracket. -/
def Neutral (b : UInt8) : Prop :=
  b ≠ 0x22 ∧ b ≠ 0x5C ∧ b ≠ 0x7B ∧ b ≠ 0x5B ∧ b ≠ 0x7D ∧ b ≠ 0x5D

lemma balanced_of_neutral {s : List UInt8} (h : ∀ b ∈ s, Neutral b) : Balanced s := by
  induction s with
  | nil => exact balanced_nil
  | cons b s ih =>
    obtain ⟨h₁, h₂, h₃, h₄, h₅, h₆⟩ := h b List.mem_cons_self
    have hnext : (Place.outside 0).next b = some (.outside 0) := by
      simp [next, h₁, h₂, h₃, h₄, h₅, h₆]
    rw [Balanced, after_cons, hnext, Option.bind_some]
    exact ih fun c hc => h c (List.mem_cons_of_mem _ hc)

lemma Ws.balanced {s : List UInt8} (h : Ws s) : Balanced s := by
  refine balanced_of_neutral fun b hb => ?_
  rcases h b hb with rfl | rfl | rfl | rfl <;> simp [Neutral]

lemma Digit.neutral {b : UInt8} (h : Digit b) : Neutral b := by
  refine ⟨?_, ?_, ?_, ?_, ?_, ?_⟩ <;> rintro rfl <;> simp [Digit] at h

lemma HexDig.neutral {b : UInt8} (h : HexDig b) : Neutral b := by
  refine ⟨?_, ?_, ?_, ?_, ?_, ?_⟩ <;> rintro rfl <;> simp [HexDig, Digit] at h

lemma Chars.after {s : List UInt8} (h : Chars s) (d : Nat) :
    (Place.string d).after s = some (.string d) := by
  have hex : ∀ b, HexDig b → (Place.string d).next b = some (.string d) := by
    intro b hb
    simp [next, hb.neutral.1, hb.neutral.2.1]
  induction h with
  | nil => rfl
  | plain control quote backslash rest ih => simp [next, quote, backslash, ih]
  | escape escaped rest ih => simp [next, escaped, ih]
  | unicode ha hb hc hd rest ih =>
    have hslash : (Place.string d).next 0x5C = some (.escape d) := by simp [next]
    have hu : (Place.escape d).next 0x75 = some (.string d) := by simp [next]
    simp [hslash, hu, hex _ ha, hex _ hb, hex _ hc, hex _ hd, ih]

lemma Str.balanced {s : List UInt8} (h : Str s) : Balanced s := by
  obtain ⟨chars, hchars, rfl⟩ := h
  simp [Balanced, next, after_append, hchars.after]

lemma Number.neutral {s : List UInt8} (h : Number s) : ∀ b ∈ s, Neutral b := by
  obtain ⟨minus, whole, frac, exp, hminus, hwhole, hfrac, hexp, rfl⟩ := h
  intro b hb
  simp only [List.mem_append] at hb
  rcases hb with ((hb | hb) | hb) | hb
  · rcases hminus with rfl | rfl
    · cases hb
    · rw [List.mem_singleton.mp hb]
      simp [Neutral]
  · cases hwhole with
    | zero =>
      rw [List.mem_singleton.mp hb]
      simp [Neutral]
    | nonzero digit leading rest =>
      rcases List.mem_cons.mp hb with rfl | hb
      · exact digit.neutral
      · exact (rest b hb).neutral
  · rcases hfrac with rfl | ⟨digits, ⟨-, hall⟩, rfl⟩
    · cases hb
    · rcases List.mem_cons.mp hb with rfl | hb
      · simp [Neutral]
      · exact (hall b hb).neutral
  · rcases hexp with rfl | ⟨e, sign, digits, he, hsign, ⟨-, hall⟩, rfl⟩
    · cases hb
    · simp only [List.mem_cons, List.mem_append] at hb
      rcases hb with rfl | hb | hb
      · rcases he with rfl | rfl <;> simp [Neutral]
      · rcases hsign with rfl | rfl | rfl <;> simp at hb <;> subst hb <;> simp [Neutral]
      · exact (hall b hb).neutral

lemma Literal.neutral {s : List UInt8} (h : Literal s) : ∀ b ∈ s, Neutral b := by
  rcases h with rfl | rfl | rfl <;> simp [Neutral]

lemma Name.balanced {k : Container} {s : List UInt8} (h : Name k s) : Balanced s := by
  cases k with
  | object =>
    obtain ⟨name, ws, hname, hws, rfl⟩ := h
    exact (hname.balanced.append hws.balanced).append (balanced_of_neutral (by simp [Neutral]))
  | array =>
    obtain rfl : s = [] := h
    exact balanced_nil

lemma next_opening (k : Container) (d : Nat) :
    (Place.outside d).next k.opening = some (.outside (d + 1)) := by
  cases k <;> simp [next, Container.opening]

lemma next_closing (k : Container) (d : Nat) :
    (Place.outside (d + 1)).next k.closing = some (.outside d) := by
  cases k <;> simp [next, Container.closing]

lemma Balanced.enclosed {s : List UInt8} (h : Balanced s) (k : Container) :
    Balanced (k.opening :: (s ++ [k.closing])) := by
  rw [Balanced, after_cons, next_opening, Option.bind_some, after_append, h.after]
  simp [next_closing]

lemma Elements.balanced {V : List UInt8 → Prop} {k : Container} {s : List UInt8}
    (hV : ∀ v, V v → Balanced v) (h : Elements V k s) : Balanced s := by
  have helement : ∀ {s}, Element V k s → Balanced s := by
    rintro s ⟨name, lead, v, trail, hname, hlead, hv, htrail, rfl⟩
    exact ((hname.balanced.append hlead.balanced).append (hV v hv)).append htrail.balanced
  induction h with
  | last element => exact helement element
  | more element gap others ih =>
    have hcomma : Balanced [0x2C] := balanced_of_neutral (by simp [Neutral])
    exact (helement element).append (hcomma.append (gap.balanced.append ih))

lemma Flat.balanced {s : List UInt8} (h : Flat s) : Balanced s := by
  cases h with
  | str h => exact h.balanced
  | number h => exact balanced_of_neutral h.neutral
  | literal h => exact balanced_of_neutral (Literal.neutral h)
  | empty k h => exact h.balanced.enclosed k

lemma Value.balanced {n : Nat} {s : List UInt8} (h : Value n s) : Balanced s := by
  induction n generalizing s with
  | zero => exact Flat.balanced h
  | succ n ih =>
    rcases h with h | ⟨k, ws, elements, hws, helements, rfl⟩
    · exact h.balanced
    · exact (hws.balanced.append (helements.balanced fun v hv => ih hv)).enclosed k

lemma Text.balanced {n : Nat} {s : List UInt8} (h : Text n s) : Balanced s := by
  obtain ⟨lead, value, trail, hlead, hvalue, htrail, rfl⟩ := h
  exact (hlead.balanced.append (Value.balanced hvalue)).append htrail.balanced

/-! ### Pieces of an object -/

/-- A value that begins with a brace ends with one. -/
lemma Value.enclosed {n : Nat} {s : List UInt8} (h : Value n s) (hhead : s.head? = some 0x7B) :
    ∃ inner, Balanced inner ∧
      s = Container.object.opening :: (inner ++ [Container.object.closing]) := by
  have hobject : ∀ {k : Container} {t : List UInt8},
      (k.opening :: t).head? = some 0x7B → k = .object := by
    intro k t h
    cases k with
    | object => rfl
    | array => simp [Container.opening] at h
  rcases value_iff.mp h with h | ⟨k, ws, elements, hws, helements, rfl⟩
  · cases h with
    | str h =>
      obtain ⟨chars, -, rfl⟩ := h
      simp at hhead
    | number h => exact absurd rfl (h.neutral 0x7B (List.mem_of_mem_head? hhead)).2.2.1
    | literal h => exact absurd rfl (Literal.neutral h 0x7B (List.mem_of_mem_head? hhead)).2.2.1
    | empty k hws =>
      cases hobject hhead
      exact ⟨_, hws.balanced, rfl⟩
  · cases hobject hhead
    refine ⟨_, hws.balanced.append (Elements.balanced (fun v hv => ?_) helements), rfl⟩
    cases n with
    | zero => exact hv.elim
    | succ n => exact Value.balanced hv

/-- A text without white space around it that begins with a brace. -/
lemma Text.enclosed {n : Nat} {s : List UInt8} (h : Text n s) (hhead : s.head? = some 0x7B)
    (hlast : ∀ b ∈ s.getLast?, ¬Ws [b]) :
    ∃ inner, Balanced inner ∧
      s = Container.object.opening :: (inner ++ [Container.object.closing]) := by
  obtain ⟨lead, value, trail, hlead, hvalue, htrail, rfl⟩ := h
  obtain rfl : lead = [] := by
    cases lead with
    | nil => rfl
    | cons b lead =>
      obtain rfl : b = 0x7B := by simpa using hhead
      have hbrace := hlead 0x7B List.mem_cons_self
      simp at hbrace
  obtain rfl : trail = [] := by
    rcases List.eq_nil_or_concat' trail with rfl | ⟨trail, b, rfl⟩
    · rfl
    · refine absurd ?_ (hlast b (by simp))
      intro c hc
      rw [List.mem_singleton.mp hc]
      exact htrail b (by simp)
  rw [List.nil_append, List.append_nil] at hhead ⊢
  exact Value.enclosed hvalue hhead

/-- A proper beginning of an enclosed text ends inside its brackets. -/
lemma Balanced.depth_pos {s pre post : List UInt8} (h : Balanced s) (k : Container)
    (heq : k.opening :: (s ++ [k.closing]) = pre ++ post) (hpre : pre ≠ []) (hpost : post ≠ []) :
    ∃ place, (Place.outside 0).after pre = some place ∧ 1 ≤ place.depth := by
  obtain ⟨b, mid, rfl⟩ := List.exists_cons_of_ne_nil hpre
  rw [List.cons_append] at heq
  obtain ⟨rfl, htail⟩ := List.cons.inj heq
  -- the last byte belongs to what was cut off, so the rest of the text is read from inside
  obtain ⟨init, last, rfl⟩ : ∃ init last, post = init ++ [last] := by
    rcases List.eq_nil_or_concat' post with rfl | hpost
    · exact absurd rfl hpost
    · exact hpost
  rw [← List.append_assoc] at htail
  obtain ⟨rfl, -⟩ := List.append_inj' htail rfl
  rw [Balanced, after_append, Option.bind_eq_some_iff] at h
  obtain ⟨place, hplace, -⟩ := h
  refine ⟨place.deeper 1, ?_, ?_⟩
  · rw [after_cons, next_opening, Option.bind_some]
    exact after_deeper hplace 1
  · cases place <;> simp [deeper, Place.depth]

/-- Of two readings of a text, one that begins in a string and one that begins outside, one ends in
a string and one outside. -/
lemma after_flip {s : List UInt8} {d e : Nat} {x y : Place} (hx : (Place.string d).after s = some x)
    (hy : (Place.outside e).after s = some y) :
    (∃ d' e', x = .string d' ∧ y = .outside e') ∨ ∃ d' e', x = .outside d' ∧ y = .string e' := by
  induction s generalizing d e x y with
  | nil =>
    cases hx
    cases hy
    exact .inl ⟨_, _, rfl, rfl⟩
  | cons b s ih =>
    rw [after_cons, Option.bind_eq_some_iff] at hx hy
    obtain ⟨p, hp, hx⟩ := hx
    obtain ⟨q, hq, hy⟩ := hy
    by_cases hquote : b = 0x22
    · simp only [next, if_pos hquote, Option.some_inj] at hp hq
      subst hp hq
      rcases ih hy hx with ⟨d', e', rfl, rfl⟩ | ⟨d', e', rfl, rfl⟩
      · exact .inr ⟨_, _, rfl, rfl⟩
      · exact .inl ⟨_, _, rfl, rfl⟩
    · have hslash : b ≠ 0x5C := by
        rintro rfl
        simp [next] at hq
      simp only [next, if_neg hquote, if_neg hslash, Option.some_inj] at hp
      obtain ⟨e', rfl⟩ : ∃ e', q = .outside e' := by
        simp only [next, if_neg hquote, if_neg hslash] at hq
        split_ifs at hq
        · exact ⟨_, (Option.some_inj.mp hq).symm⟩
        · cases e with
          | zero => cases hq
          | succ e => exact ⟨_, (Option.some_inj.mp hq).symm⟩
        · exact ⟨_, (Option.some_inj.mp hq).symm⟩
      subst hp
      exact ih hx hy

/-- No proper beginning of an enclosed text is balanced. -/
lemma Balanced.eq_of_prefix {s pre post : List UInt8} (h : Balanced s) (k : Container)
    (heq : k.opening :: (s ++ [k.closing]) = pre ++ post) (hpre : pre ≠ [])
    (hbalanced : Balanced pre) : post = [] := by
  by_contra hpost
  obtain ⟨place, hplace, hdepth⟩ := h.depth_pos k heq hpre hpost
  rw [hbalanced, Option.some_inj] at hplace
  subst hplace
  simp [Place.depth] at hdepth

/-- No proper ending of an enclosed text is balanced if it begins with an opening brace. -/
lemma Balanced.eq_of_suffix {s pre post : List UInt8} (h : Balanced s) (k : Container)
    (heq : k.opening :: (s ++ [k.closing]) = pre ++ post) (hhead : post.head? = some 0x7B)
    (hbalanced : Balanced post) : pre = [] := by
  by_contra hpre
  have hpost : post ≠ [] := by
    rintro rfl
    simp at hhead
  obtain ⟨place, hplace, hdepth⟩ := h.depth_pos k heq hpre hpost
  have hwhole := h.enclosed k
  rw [heq, Balanced, after_append, hplace, Option.bind_some] at hwhole
  cases place with
  | outside d =>
    rw [hbalanced.after, Option.some_inj, Place.outside.injEq] at hwhole
    subst hwhole
    simp [Place.depth] at hdepth
  | string d =>
    rcases after_flip hwhole hbalanced with ⟨_, _, h, -⟩ | ⟨_, _, -, h⟩
    · cases h
    · cases h
  | escape d =>
    obtain ⟨rest, rfl⟩ : ∃ rest, post = 0x7B :: rest := by
      cases post with
      | nil => simp at hhead
      | cons b rest => exact ⟨rest, by simpa using hhead⟩
    have hbrace : (Place.escape d).next 0x7B = none := by simp [next, Escaped]
    rw [after_cons, hbrace] at hwhole
    cases hwhole

end JsonText
