import AutoAttn.JsonPlace
import AutoAttn.Reliability.Json

/-!
# Filling an unreadable range

The repair writes bytes of its own where a file cannot be read (`storage_repair_plan.c`). In a file
of JSON rows it writes NUL, which no row holds, and a newline where a readable row beside the range
would lose its boundary.
-/

namespace ZoneLite

open Lines JsonText

/-- `srp_fill_t`. -/
inductive SrpFill where
  | binary
  | jsonRows
  | idLines
  | cursor
deriving DecidableEq

/-- A row that every drain takes for a JSON object. -/
def completeObject (row : List UInt8) : Bool :=
  decide (2 ≤ row.length) && row.head? == some 0x7B && !row.contains 0 && relJsonSyntaxValid row

/-- The `length` bytes written into a range, given the readable bytes before it since the last
newline and those behind it up to the next one. -/
def srpFill (fill : SrpFill) (prefixBytes suffixBytes : List UInt8) (suffixComplete : Bool)
    (length : Nat) : List UInt8 :=
  if length = 0 then []
  else
    match fill with
    | .idLines  => List.replicate length newline
    | .cursor   => (List.replicate length 0x30).set (length - 1) newline
    | .jsonRows =>
      let out := List.replicate length 0
      let out := if prefixBytes ≠ [] ∧ completeObject prefixBytes then out.set 0 newline else out
      if suffixComplete ∧ 3 ≤ suffixBytes.length ∧ suffixBytes.getLast? = some newline ∧
          completeObject suffixBytes.dropLast then
        out.set (length - 1) newline
      else out
    | .binary   => List.replicate length 0

/-- The bytes since the last newline before `a`. -/
def prefixAt (file : List UInt8) (a : Nat) : List UInt8 :=
  (file.take a).rtakeWhile (· != newline)

/-- The bytes from `b` up to the next newline, with it. -/
def suffixAt (file : List UInt8) (b : Nat) : List UInt8 :=
  (file.drop b).take ((file.drop b).idxOf newline + 1)

/-- The file with the bytes from `a` to `b` filled. -/
def fillRows (file : List UInt8) (a b : Nat) : List UInt8 :=
  file.take a ++ srpFill .jsonRows (prefixAt file a) (suffixAt file b) true (b - a) ++ file.drop b

/-! ### What is written -/

section
variable {prefixBytes suffixBytes : List UInt8} {suffixComplete : Bool} {length : Nat}

@[simp] lemma length_srpFill (fill : SrpFill) :
    (srpFill fill prefixBytes suffixBytes suffixComplete length).length = length := by
  by_cases h : length = 0
  · simp [srpFill, h]
  · cases fill with
    | jsonRows =>
      simp only [srpFill, if_neg h]
      split_ifs <;> simp
    | _ => simp [srpFill, h]

/-- No byte of a row is written. -/
lemma mem_srpFill_jsonRows {b : UInt8}
    (h : b ∈ srpFill .jsonRows prefixBytes suffixBytes suffixComplete length) :
    b = 0 ∨ b = newline := by
  have hset : ∀ {out : List UInt8} (i : Nat), (∀ c ∈ out, c = 0 ∨ c = newline) →
      ∀ c ∈ out.set i newline, c = 0 ∨ c = newline := by
    intro out i hout c hc
    exact (List.mem_or_eq_of_mem_set hc).elim (hout c) .inr
  have hzero : ∀ c ∈ List.replicate length (0 : UInt8), c = 0 ∨ c = newline :=
    fun c hc => .inl (List.eq_of_mem_replicate hc)
  by_cases hlength : length = 0
  · simp [srpFill, hlength] at h
  · simp only [srpFill, if_neg hlength] at h
    split_ifs at h
    · exact hset _ (hset _ hzero) b h
    · exact hset _ hzero b h
    · exact hset _ hzero b h
    · exact hzero b h

/-- A readable row whose newline was lost keeps its own boundary. -/
lemma head?_srpFill_jsonRows (hlength : length ≠ 0) (hpre : completeObject prefixBytes = true) :
    (srpFill .jsonRows prefixBytes suffixBytes suffixComplete length).head? = some newline := by
  have hne : prefixBytes ≠ [] := by
    rintro rfl
    simp [completeObject] at hpre
  obtain ⟨n, rfl⟩ := Nat.exists_eq_succ_of_ne_zero hlength
  simp only [srpFill, if_neg hlength, if_pos (And.intro hne hpre), List.replicate_succ,
    List.set_cons_zero]
  split_ifs
  · cases n <;> rfl
  · rfl

/-- A complete row after the gap starts on its own line. -/
lemma getLast?_srpFill_jsonRows {row : List UInt8} (hlength : length ≠ 0)
    (hrow : completeObject row = true) :
    (srpFill .jsonRows prefixBytes (row ++ [newline]) true length).getLast? = some newline := by
  have hsize : 2 ≤ row.length := by
    simp only [completeObject, Bool.and_eq_true, decide_eq_true_eq] at hrow
    exact hrow.1.1.1
  have hsuffix : 3 ≤ (row ++ [newline]).length ∧ (row ++ [newline]).getLast? = some newline ∧
      completeObject (row ++ [newline]).dropLast = true := by
    simp [hrow, hsize]
  have hlast : length - 1 < length := by omega
  simp only [srpFill, if_neg hlength, true_and, if_pos hsuffix]
  split_ifs <;> simp [List.getLast?_eq_getElem?, hlast]

end

/-! ### Lines and rows -/

/-- The text `l` stands between two newlines of the file, or between one and an end of the file,
with `o` bytes before it. -/
def LineAt (file : List UInt8) (o : Nat) (l : List UInt8) : Prop :=
  ∃ before after, file = before ++ l ++ after ∧ before.length = o ∧ newline ∉ l ∧
    (∀ b ∈ before.getLast?, b = newline) ∧ ∀ b ∈ after.head?, b = newline

/-- The row with `o` bytes before it. -/
def RowAt (rows : List (List UInt8)) (o : Nat) (row : List UInt8) : Prop :=
  ∃ before after, rows = before ++ row :: after ∧ (render before).length = o

/-- A row as the queues write it. -/
structure Row (row : List UInt8) : Prop where
  complete : completeObject row = true
  oneLine : newline ∉ row
  trimmed : ∀ b ∈ row.getLast?, isBlank b = false

lemma completeObject_iff {row : List UInt8} : completeObject row = true ↔
    2 ≤ row.length ∧ row.head? = some 0x7B ∧ 0 ∉ row ∧ Text 32 row := by
  simp [completeObject, relJsonSyntaxValid_iff, and_assoc]

lemma ne_nil_of_completeObject {row : List UInt8} (h : completeObject row = true) : row ≠ [] := by
  rintro rfl
  simp [completeObject] at h

lemma Row.enclosed {row : List UInt8} (h : Row row) : ∃ inner, Balanced inner ∧
    row = Container.object.opening :: (inner ++ [Container.object.closing]) := by
  obtain ⟨-, hhead, -, htext⟩ := completeObject_iff.mp h.complete
  refine htext.enclosed hhead fun b hb hws => ?_
  have hblank := isBlank_iff.mpr (hws b (List.mem_singleton.mpr rfl))
  rw [h.trimmed b hb] at hblank
  cases hblank

/-- No piece at the start of a row is a row. -/
lemma Row.eq_of_prefix {l v : List UInt8} (h : Row (l ++ v)) (hl : completeObject l = true) :
    v = [] := by
  obtain ⟨inner, hinner, heq⟩ := h.enclosed
  obtain ⟨-, -, -, htext⟩ := completeObject_iff.mp hl
  exact hinner.eq_of_prefix .object heq.symm (ne_nil_of_completeObject hl) htext.balanced

/-- No piece at the end of a row is a row, wherever it begins. -/
lemma Row.eq_of_suffix {u l : List UInt8} (h : Row (u ++ l)) (hl : completeObject l = true) :
    u = [] := by
  obtain ⟨inner, hinner, heq⟩ := h.enclosed
  obtain ⟨-, hhead, -, htext⟩ := completeObject_iff.mp hl
  exact hinner.eq_of_suffix .object heq.symm hhead htext.balanced

section
variable {rows : List (List UInt8)} (hrows : ∀ row ∈ rows, Row row)
  {before l after : List UInt8} (hl : completeObject l = true) (hline : newline ∉ l)
  (heq : render rows = before ++ l ++ after)
include hrows hl hline heq

/-- A complete object behind a newline of the file is a row of it. -/
lemma rowAt_of_start (hbefore : ∀ b ∈ before.getLast?, b = newline) :
    RowAt rows before.length l := by
  obtain ⟨pre, u, v, post, rfl, rfl, rfl⟩ :=
    exists_line_of_render_eq (ne_nil_of_completeObject hl) hline heq
  have hrow := hrows (u ++ l ++ v) (by simp)
  obtain rfl : u = [] := by
    rcases List.eq_nil_or_concat' u with rfl | ⟨u, b, rfl⟩
    · rfl
    · obtain rfl := hbefore b (by simp)
      exact absurd hrow.oneLine (by simp)
  obtain rfl := Row.eq_of_prefix hrow hl
  exact ⟨pre, post, by simp, by simp⟩

/-- A complete object before a newline of the file is a row of it. -/
lemma rowAt_of_end (hafter : ∀ b ∈ after.head?, b = newline) : RowAt rows before.length l := by
  obtain ⟨pre, u, v, post, rfl, rfl, rfl⟩ :=
    exists_line_of_render_eq (ne_nil_of_completeObject hl) hline heq
  have hrow := hrows (u ++ l ++ v) (by simp)
  obtain rfl : v = [] := by
    cases v with
    | nil => rfl
    | cons b v =>
      obtain rfl := hafter b (by simp)
      exact absurd hrow.oneLine (by simp)
  rw [List.append_nil] at hrow
  obtain rfl := hrow.eq_of_suffix hl
  exact ⟨pre, post, by simp, by simp⟩

end

/-! ### Rows of the filled file -/

/-- Two pieces of a list that overlap have an element in common. -/
lemma exists_mem_of_overlap {T fill D before l after : List UInt8}
    (heq : T ++ fill ++ D = before ++ l ++ after) (hfill : fill ≠ []) (hl : l ≠ [])
    (hend : T.length < before.length + l.length) (hstart : before.length < T.length + fill.length) :
    ∃ b ∈ fill, b ∈ l := by
  have hfill := List.length_pos_of_ne_nil hfill
  have hl := List.length_pos_of_ne_nil hl
  -- the later of the two starts lies in both
  obtain ⟨i, j, hij, hi, hj⟩ : ∃ i j, T.length + i = before.length + j ∧ i < fill.length ∧
      j < l.length := by
    rcases Nat.le_total T.length before.length with h | h
    · exact ⟨before.length - T.length, 0, by omega, by omega, by omega⟩
    · exact ⟨0, T.length - before.length, by omega, by omega, by omega⟩
  have hbyte : fill[i]? = l[j]? := by
    have hat := congrArg (·[T.length + i]?) heq
    simp only [List.append_assoc] at hat
    rw [List.getElem?_append_right (by omega), List.getElem?_append_left (by omega), hij,
      List.getElem?_append_right (by omega), List.getElem?_append_left (by omega)] at hat
    rwa [show before.length + j - T.length = i by omega, Nat.add_sub_cancel_left] at hat
  refine ⟨fill[i], List.getElem_mem hi, ?_⟩
  rw [List.getElem?_eq_getElem hi] at hbyte
  exact List.mem_of_getElem? hbyte.symm

lemma fillRows_self (file : List UInt8) (a : Nat) : fillRows file a a = file := by
  simp [fillRows, srpFill]

/-- An accepted line of the filled file is a row of the file. -/
lemma rowAt_of_lineAt_fillRows {rows : List (List UInt8)} (hrows : ∀ row ∈ rows, Row row)
    {a b : Nat} (hab : a ≤ b) (hb : b ≤ (render rows).length) {o : Nat} {l : List UInt8}
    (hline : LineAt (fillRows (render rows) a b) o l) (hl : completeObject l = true) :
    RowAt rows o l := by
  obtain ⟨before, after, heq, rfl, hplain, hbefore, hafter⟩ := hline
  rcases hab.eq_or_lt with rfl | hab
  · rw [fillRows_self] at heq
    exact rowAt_of_start hrows hl hplain heq hbefore
  rw [fillRows] at heq
  have hT : ((render rows).take a).length = a := by simp; omega
  generalize hfill : srpFill .jsonRows (prefixAt (render rows) a) (suffixAt (render rows) b) true
    (b - a) = fill at heq
  have hsize : fill.length = b - a := by rw [← hfill, length_srpFill]
  rcases Nat.lt_or_ge a (before.length + l.length) with hend | hend
  · rcases Nat.lt_or_ge before.length b with hstart | hstart
    · -- a line with a byte of the gap holds what was written there
      obtain ⟨c, hc, hcl⟩ := exists_mem_of_overlap heq
        (List.ne_nil_of_length_pos (by omega)) (ne_nil_of_completeObject hl) (by omega) (by omega)
      rcases mem_srpFill_jsonRows (hfill ▸ hc) with rfl | rfl
      · exact absurd hcl (completeObject_iff.mp hl).2.2.1
      · exact absurd hcl hplain
    · -- a line behind the gap ends at a newline of the file
      obtain ⟨mid, rfl⟩ : (render rows).take a ++ fill <+: before :=
        List.prefix_of_prefix_length_le ⟨_, heq⟩ ⟨l ++ after, by simp⟩ (by simp; omega)
      have hdrop : (render rows).drop b = mid ++ l ++ after := by simpa using heq
      have hfile : render rows = ((render rows).take b ++ mid) ++ l ++ after := by
        conv_lhs => rw [← List.take_append_drop b (render rows), hdrop]
        simp
      have hrow := rowAt_of_end hrows hl hplain hfile hafter
      rwa [show ((render rows).take b ++ mid).length =
        ((render rows).take a ++ fill ++ mid).length by simp; omega] at hrow
  · -- a line before the gap begins behind a newline of the file
    obtain ⟨mid, htake⟩ : before ++ l <+: (render rows).take a :=
      List.prefix_of_prefix_length_le ⟨after, rfl⟩ ⟨fill ++ (render rows).drop b, by simpa using heq⟩
        (by simp; omega)
    have hfile : render rows = before ++ l ++ (mid ++ (render rows).drop a) := by
      conv_lhs => rw [← List.take_append_drop a (render rows), ← htake]
      simp
    exact rowAt_of_start hrows hl hplain hfile hbefore

/-- The bytes since the last newline before the end of a row are the row. -/
lemma prefixAt_end {pre row post : List UInt8} (hpre : ∀ b ∈ pre.getLast?, b = newline)
    (hrow : newline ∉ row) : prefixAt (pre ++ row ++ post) (pre.length + row.length) = row := by
  have htake : (pre ++ row ++ post).take (pre.length + row.length) = pre ++ row := by
    rw [← List.length_append, List.take_left]
  have hall : ∀ b ∈ row.reverse, (b != newline) = true := by
    intro b hb
    rw [bne_iff_ne]
    rintro rfl
    exact hrow (List.mem_reverse.mp hb)
  have hhead : pre.reverse.takeWhile (· != newline) = [] := by
    rcases List.eq_nil_or_concat' pre with rfl | ⟨pre, b, rfl⟩
    · rfl
    · obtain rfl := hpre b (by simp)
      simp
  rw [prefixAt, htake, List.rtakeWhile, List.reverse_append, List.takeWhile_append_of_pos hall, hhead]
  simp

/-- The bytes from the start of a row up to the next newline are the row with its newline. -/
lemma suffixAt_start {pre row post : List UInt8} (hrow : newline ∉ row) :
    suffixAt (pre ++ row ++ newline :: post) pre.length = row ++ [newline] := by
  have hdrop : (pre ++ row ++ newline :: post).drop pre.length = row ++ newline :: post := by
    rw [List.append_assoc, List.drop_left]
  rw [suffixAt, hdrop, List.idxOf_append_of_notMem hrow]
  simp [List.take_append]

lemma getLast?_render (rows : List (List UInt8)) : ∀ b ∈ (render rows).getLast?, b = newline := by
  rcases List.eq_nil_or_concat' rows with rfl | ⟨rows, row, rfl⟩
  · simp
  · simp [eq_comm]

/-- A row beside the gap is a line of the filled file. -/
lemma lineAt_fillRows_of_rowAt {rows : List (List UInt8)} (hrows : ∀ row ∈ rows, Row row)
    {a b : Nat} (hab : a ≤ b) (hb : b ≤ (render rows).length) {o : Nat} {row : List UInt8}
    (hrow : RowAt rows o row) (hout : o + row.length ≤ a ∨ b ≤ o) :
    LineAt (fillRows (render rows) a b) o row := by
  obtain ⟨pre, post, rfl, rfl⟩ := hrow
  have hrow := hrows row (by simp)
  have hpre := getLast?_render pre
  rw [show render (pre ++ row :: post) = render pre ++ row ++ newline :: render post by simp] at hb ⊢
  generalize render pre = before at hb hpre hout ⊢
  generalize render post = after at hb ⊢
  rcases hab.eq_or_lt with rfl | hab
  · rw [fillRows_self]
    exact ⟨before, newline :: after, rfl, rfl, hrow.oneLine, hpre, by simp⟩
  have hgap : b - a ≠ 0 := by omega
  rw [fillRows]
  generalize hfile : before ++ row ++ newline :: after = file
  generalize hfill : srpFill .jsonRows (prefixAt file a) (suffixAt file b) true (b - a) = fill
  rcases hout with hout | hout
  · -- the newline behind the row is its own, or the first byte of the gap
    have htake : file.take a = before ++ row ++ (newline :: after).take (a - (before ++ row).length) := by
      rw [← hfile, List.take_append, List.take_of_length_le (by simpa using hout)]
    refine ⟨before, (newline :: after).take (a - (before ++ row).length) ++ (fill ++ file.drop b),
      by rw [htake]; simp only [List.append_assoc], rfl, hrow.oneLine, hpre, ?_⟩
    rcases hout.eq_or_lt with rfl | hlt
    · have hhead : fill.head? = some newline := by
        rw [← hfill, ← hfile, prefixAt_end hpre hrow.oneLine]
        exact head?_srpFill_jsonRows hgap hrow.complete
      simp [hhead]
    · obtain ⟨k, hk⟩ : ∃ k, a - (before ++ row).length = k + 1 :=
        Nat.exists_eq_add_one.mpr (by simpa using hlt)
      rw [hk]
      simp
  · -- the newline before the row is that of the row before it, or the last byte of the gap
    have hdrop : file.drop b = before.drop b ++ row ++ newline :: after := by
      rw [← hfile, List.append_assoc, List.drop_append_of_le_length hout, List.append_assoc]
    refine ⟨file.take a ++ fill ++ before.drop b, newline :: after,
      by rw [hdrop]; simp only [List.append_assoc], ?_, hrow.oneLine, ?_, by simp⟩
    · have hsize : file.length = before.length + row.length + (after.length + 1) := by
        simp [← hfile, add_assoc]
      simp [← hfill]
      omega
    · rcases hout.eq_or_lt with rfl | hlt
      · have hlast : fill.getLast? = some newline := by
          rw [← hfill, ← hfile, suffixAt_start hrow.oneLine]
          exact getLast?_srpFill_jsonRows hgap hrow.complete
        simp [List.getLast?_append, hlast]
      · have hne : before.drop b ≠ [] := by simpa using hlt
        intro c hc
        rw [List.getLast?_append_of_ne_nil _ hne, List.getLast?_drop, if_neg (by omega)] at hc
        exact hpre c hc

/-- Filling a gap neither loses nor invents rows. -/
theorem fill_rows_neither_loses_nor_invents {rows : List (List UInt8)}
    (hrows : ∀ row ∈ rows, Row row) {a b : Nat} (hab : a ≤ b) (hb : b ≤ (render rows).length) :
    (∀ o l, LineAt (fillRows (render rows) a b) o l → completeObject l = true → RowAt rows o l) ∧
      ∀ o row, RowAt rows o row → o + row.length ≤ a ∨ b ≤ o →
        LineAt (fillRows (render rows) a b) o row ∧ completeObject row = true := by
  refine ⟨fun o l hline hl => rowAt_of_lineAt_fillRows hrows hab hb hline hl, ?_⟩
  intro o row hrow hout
  refine ⟨lineAt_fillRows_of_rowAt hrows hab hb hrow hout, ?_⟩
  obtain ⟨before, after, rfl, -⟩ := hrow
  exact (hrows row (by simp)).complete

/-- The newline between two rows cannot be read. -/
theorem fill_rows_neither_loses_nor_invents_one_byte :
    RowAt [[0x7B, 0x7D], [0x7B, 0x7D]] 3 [0x7B, 0x7D] ∧
      LineAt (fillRows (render [[0x7B, 0x7D], [0x7B, 0x7D]]) 2 3) 3 [0x7B, 0x7D] := by
  have hrow : Row [0x7B, 0x7D] := ⟨by decide, by decide, by simp [isBlank]⟩
  have hrows : ∀ row ∈ [[0x7B, 0x7D], [0x7B, 0x7D]], Row row := by simp [hrow]
  have hat : RowAt [[0x7B, 0x7D], [0x7B, 0x7D]] 3 [0x7B, 0x7D] := ⟨[[0x7B, 0x7D]], [], rfl, rfl⟩
  have hfill := fill_rows_neither_loses_nor_invents hrows (a := 2) (b := 3) (by decide) (by decide)
  exact ⟨hat, (hfill.2 3 _ hat (.inr le_rfl)).1⟩

end ZoneLite
