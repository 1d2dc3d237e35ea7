import Mathlib.Data.Set.Basic
import AutoAttn.Crash.Logic

/-!
# The copy of the SPIFFS metadata in memory

The boot repair keeps the lookup page of every block and the header of every page in memory
(`storage_repair_mirror.c`). Programs and erases go to flash first and then change the copy by the
rules of NOR flash. What is left in flash by an operation that failed is not known, so the copy of
the pages it may have changed is read again, and the copy is given up when that cannot be done.
-/

namespace ZoneLite

open Crash

/-! ### Flash -/

/-- Bytes by address. -/
abbrev Memory := Nat → UInt8

namespace Memory

def slice (mem : Memory) (address length : Nat) : List UInt8 :=
  (List.range length).map fun i => mem (address + i)

/-- Change the bytes of a range, the byte at `i` in it by `f i`. -/
def change (mem : Memory) (address length : Nat) (f : Nat → UInt8 → UInt8) : Memory :=
  fun x => if address ≤ x ∧ x < address + length then f (x - address) (mem x) else mem x

/-- A program can only clear bits. -/
def program (mem : Memory) (address : Nat) (data : List UInt8) : Memory :=
  mem.change address data.length fun i b => b &&& data.getD i 0

/-- An erase sets every bit. -/
def erase (mem : Memory) (address length : Nat) : Memory :=
  mem.change address length fun _ _ => 0xFF

/-- Any bytes at all in a range, those of the number `n`. -/
def disturb (mem : Memory) (address length n : Nat) : Memory :=
  mem.change address length fun i _ => (n >>> (8 * i)).toUInt8

end Memory

/-! ### The mirror -/

/-- `SRM_HEADER_BYTES`. -/
def srmHeaderBytes : Nat := 5

structure SrmLayout where
  size : Nat
  blockSize : Nat
  pageSize : Nat
  blocks : Nat
  pages : Nat
deriving DecidableEq

/-- The two arrays of the mirror. -/
inductive Buffer where
  | lookup
  | headers
deriving DecidableEq

structure Copy where
  buffer : Buffer
  offset : Nat
  length : Nat

/-- `srm_mirror_t`. -/
structure SrmMirror where
  layout : SrmLayout
  lookup : Memory
  headers : Memory
  valid : Bool
  hits : Nat
  misses : Nat
  refreshes : Nat

/-- The mirrored bytes of a page: its whole lookup page, or its header. -/
def SrmLayout.mirrored (L : SrmLayout) (page : Nat) : Copy :=
  let perBlock := L.blockSize / L.pageSize
  if page % perBlock = 0 then ⟨.lookup, page / perBlock * L.pageSize, L.pageSize⟩
  else ⟨.headers, page * srmHeaderBytes, srmHeaderBytes⟩

def SrmMirror.bytes (m : SrmMirror) : Buffer → Memory
  | .lookup  => m.lookup
  | .headers => m.headers

def SrmMirror.change (m : SrmMirror) (copy : Copy) (f : Nat → UInt8 → UInt8) : SrmMirror :=
  match copy.buffer with
  | .lookup  => { m with lookup := m.lookup.change copy.offset copy.length f }
  | .headers => { m with headers := m.headers.change copy.offset copy.length f }

/-- The flash chip and the mirror of it. -/
structure Mirrored where
  flash : Memory
  mirror : SrmMirror

namespace Mirrored

def flashRead (address length : Nat) : Prog Mirrored (Option (List UInt8)) := do
  if ← .look then
    let data ← .gets fun s => s.flash.slice address length
    return some data
  else return none

def flashWrite (address : Nat) (data : List UInt8) : Prog Mirrored Bool :=
  .op (fun s => { s with flash := s.flash.program address data })
    fun n s => { s with flash := s.flash.disturb address data.length n }

def flashErase (address length : Nat) : Prog Mirrored Bool :=
  .op (fun s => { s with flash := s.flash.erase address length })
    fun n s => { s with flash := s.flash.disturb address length n }

def setMirror (f : SrmMirror → SrmMirror) : Prog Mirrored Unit :=
  .modify fun s => { s with mirror := f s.mirror }

def refreshPage (page : Nat) : Prog Mirrored Bool := do
  let m ← .gets (·.mirror)
  let copy := m.layout.mirrored page
  setMirror fun m => { m with refreshes := m.refreshes + 1 }
  match ← flashRead (page * m.layout.pageSize) copy.length with
  | none =>
    setMirror fun m => { m with valid := false }
    return false
  | some data =>
    setMirror fun m => m.change copy fun i _ => data.getD i 0
    return true

/-- The parameters `srm_init` accepts. -/
def srmAccepts (size blockSize pageSize scratchSize : Nat) : Bool :=
  decide (pageSize ≠ 0 ∧ blockSize ≠ 0 ∧ blockSize % pageSize = 0 ∧ size % blockSize = 0 ∧
    blockSize ≤ scratchSize ∧ srmHeaderBytes ≤ pageSize)

/-- The lookup page and the headers of a block, from all of its bytes. -/
def copyBlock (L : SrmLayout) (block : Nat) (scratch : List UInt8) (m : SrmMirror) : SrmMirror :=
  let perBlock := L.blockSize / L.pageSize
  let m := m.change ⟨.lookup, block * L.pageSize, L.pageSize⟩ fun i _ => scratch.getD i 0
  (List.range perBlock).foldl (fun m i =>
    m.change ⟨.headers, (block * perBlock + i) * srmHeaderBytes, srmHeaderBytes⟩
      fun j _ => scratch.getD (i * L.pageSize + j) 0) m

def fillBlocks (L : SrmLayout) : List Nat → Prog Mirrored Bool
  | []              => return true
  | block :: blocks => do
    match ← flashRead (block * L.blockSize) L.blockSize with
    | none         => return false
    | some scratch =>
      setMirror (copyBlock L block scratch)
      fillBlocks L blocks

def srmInit (size blockSize pageSize scratchSize : Nat) (lookup headers : Memory) :
    Prog Mirrored Bool := do
  setMirror fun _ => ⟨⟨0, 0, 0, 0, 0⟩, fun _ => 0, fun _ => 0, false, 0, 0, 0⟩
  if !srmAccepts size blockSize pageSize scratchSize then return false
  let L : SrmLayout := ⟨size, blockSize, pageSize, size / blockSize, size / pageSize⟩
  setMirror fun m => { m with layout := L, lookup := lookup, headers := headers }
  if !(← fillBlocks L (List.range L.blocks)) then return false
  setMirror fun m => { m with valid := true }
  return true

def srmRead (address length : Nat) : Prog Mirrored (Option (List UInt8)) := do
  let m ← .gets (·.mirror)
  let copy := m.layout.mirrored (address / m.layout.pageSize)
  let within := address % m.layout.pageSize
  if m.valid ∧ length ≠ 0 ∧ address + length ≤ m.layout.size ∧ within + length ≤ copy.length then
    setMirror fun m => { m with hits := m.hits + 1 }
    return some ((m.bytes copy.buffer).slice (copy.offset + within) length)
  else
    setMirror fun m => { m with misses := m.misses + 1 }
    flashRead address length

/-- The pages that hold a byte of a range. -/
def srmPages (L : SrmLayout) (address length : Nat) : List Nat :=
  List.range' (address / L.pageSize)
    ((address + length - 1) / L.pageSize + 1 - address / L.pageSize)

/-- The loop over the pages of a program or an erase: the copy of a page is read again when the
operation failed, and its bytes are changed by `f`, given their addresses, when it did not. -/
def updatePages (ok : Bool) (f : Nat → UInt8 → UInt8) : List Nat → Prog Mirrored Bool
  | []            => return ok
  | page :: pages => do
    if !ok then
      if ← refreshPage page then updatePages ok f pages else return false
    else
      setMirror fun m => m.change (m.layout.mirrored page) fun i => f (page * m.layout.pageSize + i)
      updatePages ok f pages

/-- What a program and an erase of a range do once the flash has answered. -/
def updateCopy (ok : Bool) (f : Nat → UInt8 → UInt8) (address length : Nat) :
    Prog Mirrored Bool := do
  let m ← .gets (·.mirror)
  if !m.valid ∨ length = 0 ∨ m.layout.size < address + length then return ok
  updatePages ok f (srmPages m.layout address length)

def srmWrite (address : Nat) (data : List UInt8) : Prog Mirrored Bool := do
  let ok ← flashWrite address data
  updateCopy ok (fun x b => if address ≤ x ∧ x < address + data.length then
    b &&& data.getD (x - address) 0 else b) address data.length

def srmErase (address length : Nat) : Prog Mirrored Bool := do
  let ok ← flashErase address length
  updateCopy ok (fun _ _ => 0xFF) address length

def refreshPages : List Nat → Prog Mirrored Bool
  | []            => return true
  | page :: pages => do if ← refreshPage page then refreshPages pages else return false

def srmRefresh (address length : Nat) : Prog Mirrored Bool := do
  let m ← .gets (·.mirror)
  if !m.valid ∨ length = 0 ∨ m.layout.size < address + length then
    return m.valid || length = 0
  refreshPages (srmPages m.layout address length)

end Mirrored

/-! ### The bytes of a page in the copy -/

lemma Memory.getD_slice (mem : Memory) (address : Nat) {length i : Nat} (h : i < length) :
    (mem.slice address length).getD i 0 = mem (address + i) := by
  simp [slice, h]

lemma Memory.change_of_mem (mem : Memory) {address length i : Nat} (f : Nat → UInt8 → UInt8)
    (h : i < length) : mem.change address length f (address + i) = f i (mem (address + i)) := by
  rw [change, if_pos (by omega), Nat.add_sub_cancel_left]

lemma Memory.change_of_notMem (mem : Memory) {address length x : Nat} (f : Nat → UInt8 → UInt8)
    (h : ¬(address ≤ x ∧ x < address + length)) : mem.change address length f x = mem x := by
  rw [change, if_neg h]

/-- What `srm_init` has checked and computed. -/
structure SrmLayout.Laid (L : SrmLayout) : Prop where
  page_pos : 0 < L.pageSize
  block_pos : 0 < L.blockSize
  header_le : srmHeaderBytes ≤ L.pageSize
  dvd_block : L.pageSize ∣ L.blockSize
  dvd_size : L.blockSize ∣ L.size
  blocks_eq : L.blocks = L.size / L.blockSize
  pages_eq : L.pages = L.size / L.pageSize

namespace SrmLayout

variable {L : SrmLayout}

lemma length_mirrored_le (h : L.Laid) (page : Nat) : (L.mirrored page).length ≤ L.pageSize := by
  simp only [mirrored]
  split_ifs
  · exact le_rfl
  · exact h.header_le

lemma div_pageSize (h : L.Laid) {page i : Nat} (hi : i < (L.mirrored page).length) :
    (page * L.pageSize + i) / L.pageSize = page := by
  have := length_mirrored_le h page
  rw [Nat.mul_comm, Nat.mul_add_div h.page_pos, Nat.div_eq_of_lt (by omega), Nat.add_zero]

/-- The copies of two pages do not overlap. -/
lemma mirrored_disjoint {p q i j : Nat} (hi : i < (L.mirrored p).length)
    (hj : j < (L.mirrored q).length) (hbuffer : (L.mirrored p).buffer = (L.mirrored q).buffer)
    (heq : (L.mirrored p).offset + i = (L.mirrored q).offset + j) : p = q := by
  simp only [mirrored] at hi hj hbuffer heq
  split_ifs at hi hj hbuffer heq with hp hq
  · dsimp only at hi hj heq
    have hpos : 0 < L.pageSize := by omega
    have hdiv := congrArg (· / L.pageSize) heq
    simp only [Nat.mul_comm _ L.pageSize, Nat.mul_add_div hpos, Nat.div_eq_of_lt hi,
      Nat.div_eq_of_lt hj, Nat.add_zero] at hdiv
    calc p = L.blockSize / L.pageSize * (p / (L.blockSize / L.pageSize)) :=
          (Nat.mul_div_cancel' (Nat.dvd_of_mod_eq_zero hp)).symm
      _ = L.blockSize / L.pageSize * (q / (L.blockSize / L.pageSize)) := by rw [hdiv]
      _ = q := Nat.mul_div_cancel' (Nat.dvd_of_mod_eq_zero hq)
  · simp only [srmHeaderBytes] at hi hj heq
    omega

end SrmLayout

namespace SrmMirror

variable {m : SrmMirror}

/-- The byte at `i` of the copy of a page. -/
def byte (m : SrmMirror) (page i : Nat) : UInt8 :=
  m.bytes (m.layout.mirrored page).buffer ((m.layout.mirrored page).offset + i)

lemma byte_lookup {page : Nat} (h : page % (m.layout.blockSize / m.layout.pageSize) = 0) (i : Nat) :
    m.byte page i = m.lookup
      (page / (m.layout.blockSize / m.layout.pageSize) * m.layout.pageSize + i) := by
  simp only [byte, SrmLayout.mirrored, if_pos h, bytes]

lemma byte_header {page : Nat} (h : page % (m.layout.blockSize / m.layout.pageSize) ≠ 0) (i : Nat) :
    m.byte page i = m.headers (page * srmHeaderBytes + i) := by
  simp only [byte, SrmLayout.mirrored, if_neg h, bytes]

@[simp] lemma layout_change (copy : Copy) (f : Nat → UInt8 → UInt8) :
    (m.change copy f).layout = m.layout := by
  unfold change
  split <;> rfl

@[simp] lemma valid_change (copy : Copy) (f : Nat → UInt8 → UInt8) :
    (m.change copy f).valid = m.valid := by
  unfold change
  split <;> rfl

lemma bytes_change (copy : Copy) (f : Nat → UInt8 → UInt8) (buffer : Buffer) :
    (m.change copy f).bytes buffer =
      if buffer = copy.buffer then (m.bytes buffer).change copy.offset copy.length f
      else m.bytes buffer := by
  obtain ⟨b, offset, length⟩ := copy
  cases b <;> cases buffer <;> rfl

/-- Changing the copy of a page changes no other. -/
lemma byte_change (page : Nat) (f : Nat → UInt8 → UInt8) {q i : Nat}
    (hi : i < (m.layout.mirrored q).length) :
    (m.change (m.layout.mirrored page) f).byte q i =
      if q = page then f i (m.byte q i) else m.byte q i := by
  rw [byte, layout_change, bytes_change]
  split_ifs with hbuffer hpage hpage
  · subst hpage
    exact Memory.change_of_mem _ f hi
  · refine Memory.change_of_notMem _ f ?_
    rintro ⟨hle, hlt⟩
    obtain ⟨j, hj⟩ := Nat.exists_eq_add_of_le hle
    exact hpage (SrmLayout.mirrored_disjoint hi (j := j) (by omega) hbuffer hj)
  · exact absurd (by rw [hpage]) hbuffer
  · rfl

/-- The copy has the bytes `g` of every page, the dirty addresses apart. -/
def Agrees (m : SrmMirror) (g : Memory) (dirty : Set Nat) : Prop :=
  ∀ page < m.layout.pages, ∀ i < (m.layout.mirrored page).length,
    page * m.layout.pageSize + i ∉ dirty → m.byte page i = g (page * m.layout.pageSize + i)

lemma Agrees.mono {g : Memory} {dirty dirty' : Set Nat} (h : m.Agrees g dirty)
    (hsub : dirty ⊆ dirty') : m.Agrees g dirty' :=
  fun page hpage i hi hclean => h page hpage i hi fun hmem => hclean (hsub hmem)

lemma Agrees.congr {g g' : Memory} {dirty : Set Nat} (h : m.Agrees g dirty)
    (hg : ∀ x ∉ dirty, g' x = g x) : m.Agrees g' dirty :=
  fun page hpage i hi hclean => (h page hpage i hi hclean).trans (hg _ hclean).symm

/-- A page copied again is not dirty any more. -/
lemma Agrees.copied {g : Memory} {dirty : Set Nat} (h : m.Agrees g dirty) (hlaid : m.layout.Laid)
    (page : Nat) : (m.change (m.layout.mirrored page) fun i _ =>
      (g.slice (page * m.layout.pageSize) (m.layout.mirrored page).length).getD i 0).Agrees g
        {x | x ∈ dirty ∧ x / m.layout.pageSize ≠ page} := by
  intro q hq i hi hclean
  rw [layout_change] at hq hi hclean ⊢
  rw [byte_change page _ hi]
  split_ifs with hpage
  · subst hpage
    exact Memory.getD_slice _ _ hi
  · refine h q hq i hi fun hdirty => hclean ⟨hdirty, ?_⟩
    rwa [SrmLayout.div_pageSize hlaid hi]

/-- The copy of a page follows a change of the flash in that page. -/
lemma Agrees.changed {g : Memory} {dirty : Set Nat} (h : m.Agrees g dirty) (hlaid : m.layout.Laid)
    (page : Nat) (f : Nat → UInt8 → UInt8) :
    (m.change (m.layout.mirrored page) fun i => f (page * m.layout.pageSize + i)).Agrees
      (fun x => if x / m.layout.pageSize = page then f x (g x) else g x) dirty := by
  intro q hq i hi hclean
  rw [layout_change] at hq hi hclean ⊢
  simp only [byte_change page _ hi, SrmLayout.div_pageSize hlaid hi, h q hq i hi hclean]
  split_ifs with hpage
  · rw [hpage]
  · rfl

end SrmMirror

/-! ### Each operation -/

namespace Mirrored

open Prog

/-- The copy is that of the flash, the dirty addresses apart, or it is not used. -/
structure Coherent (s : Mirrored) (dirty : Set Nat) : Prop where
  laid : s.mirror.layout.Laid
  agrees : s.mirror.valid = true → s.mirror.Agrees s.flash dirty

/-- An operation on the mirror alone. -/
structure Keeps (s s' : Mirrored) : Prop where
  flash : s'.flash = s.flash
  layout : s'.mirror.layout = s.mirror.layout

lemma Keeps.trans {s s' s'' : Mirrored} (h : s.Keeps s') (h' : s'.Keeps s'') : s.Keeps s'' :=
  ⟨h'.flash.trans h.flash, h'.layout.trans h.layout⟩

lemma Coherent.mono {s : Mirrored} {dirty dirty' : Set Nat} (h : s.Coherent dirty)
    (hsub : dirty ⊆ dirty') : s.Coherent dirty' :=
  ⟨h.laid, fun hvalid => (h.agrees hvalid).mono hsub⟩

variable {s : Mirrored} {dirty : Set Nat}

lemma wp_flashRead {address length : Nat} :
    (flashRead address length).wp (fun data s' => s' = s ∧
      ∀ bytes ∈ data, bytes = s.flash.slice address length) (fun _ => True) s := by
  simp [flashRead]

lemma wp_refreshPage (h : s.Coherent dirty) (page : Nat) :
    (refreshPage page).wp (fun ok s' => s.Keeps s' ∧
      s'.Coherent {x | x ∈ dirty ∧ x / s.mirror.layout.pageSize ≠ page} ∧
      (ok = false → s'.mirror.valid = false)) (fun _ => True) s := by
  -- counting the refresh changes neither the copy nor whether it is used
  set counted : Mirrored :=
    { s with mirror := { s.mirror with refreshes := s.mirror.refreshes + 1 } } with hcounted
  have hagrees : counted.mirror.valid = true → counted.mirror.Agrees counted.flash dirty := h.agrees
  simp only [refreshPage, wp_bind, wp_gets, setMirror, wp_modify]
  refine wp_mono (wp_flashRead (s := counted)) ?_ fun _ _ => trivial
  rintro data s' ⟨rfl, hdata⟩
  cases data with
  | none => exact ⟨⟨rfl, rfl⟩, ⟨h.laid, by simp⟩, fun _ => rfl⟩
  | some bytes =>
    obtain rfl := hdata bytes rfl
    simp only [wp_bind, wp_modify, wp_pure]
    refine ⟨⟨rfl, SrmMirror.layout_change _ _⟩, ⟨?_, fun hvalid => ?_⟩, by simp⟩
    · rw [SrmMirror.layout_change]
      exact h.laid
    · rw [SrmMirror.valid_change] at hvalid
      exact (hagrees hvalid).copied h.laid page

lemma wp_refreshPages (h : s.Coherent dirty) (pages : List Nat) :
    (refreshPages pages).wp (fun _ s' => s.Keeps s' ∧
      s'.Coherent {x | x ∈ dirty ∧ x / s.mirror.layout.pageSize ∉ pages}) (fun _ => True) s := by
  induction pages generalizing s dirty with
  | nil => exact ⟨⟨rfl, rfl⟩, h.mono fun x hx => ⟨hx, List.not_mem_nil⟩⟩
  | cons page pages ih =>
    rw [refreshPages, wp_bind]
    refine wp_mono (wp_refreshPage h page) ?_ fun _ _ => trivial
    rintro ok s' ⟨hkeeps, hcoherent, hgiven⟩
    cases ok with
    | false => exact ⟨hkeeps, hcoherent.laid, fun hvalid => absurd hvalid (by simp [hgiven rfl])⟩
    | true =>
      refine wp_mono (ih hcoherent) ?_ fun _ _ => trivial
      rintro ok s'' ⟨hkeeps', hcoherent'⟩
      refine ⟨hkeeps.trans hkeeps', hcoherent'.mono ?_⟩
      rintro x ⟨⟨hx, hpage⟩, hpages⟩
      rw [hkeeps.layout] at hpages
      exact ⟨hx, by simp [hpage, hpages]⟩

/-- After an operation that failed the pages are read again. -/
lemma updatePages_false (f : Nat → UInt8 → UInt8) (pages : List Nat) :
    updatePages false f pages = (do let _ ← refreshPages pages; return false) := by
  induction pages with
  | nil => rfl
  | cons page pages ih =>
    rw [updatePages, refreshPages, bind_bind, if_pos Bool.not_false]
    congr 1
    funext ok
    cases ok with
    | false => rfl
    | true => exact ih

/-- After an operation that succeeded the copy follows it. -/
lemma wp_updatePages_true (hlaid : s.mirror.layout.Laid) {g : Memory}
    (h : s.mirror.valid = true → s.mirror.Agrees g dirty) (f : Nat → UInt8 → UInt8)
    {pages : List Nat} (hpages : pages.Nodup) :
    (updatePages true f pages).wp (fun _ s' => s.Keeps s' ∧ (s'.mirror.valid = true →
      s'.mirror.Agrees (fun x => if x / s.mirror.layout.pageSize ∈ pages then f x (g x) else g x)
        dirty)) (fun _ => True) s := by
  induction pages generalizing s g with
  | nil => exact ⟨⟨rfl, rfl⟩, by simpa using h⟩
  | cons page pages ih =>
    obtain ⟨hpage, hpages⟩ := List.nodup_cons.mp hpages
    rw [updatePages, if_neg (by simp), wp_bind, setMirror, wp_modify]
    set m' := s.mirror.change (s.mirror.layout.mirrored page)
      fun i => f (page * s.mirror.layout.pageSize + i) with hm'
    have hlayout' : m'.layout = s.mirror.layout := SrmMirror.layout_change _ _
    have hchanged : m'.valid = true → m'.Agrees
        (fun x => if x / s.mirror.layout.pageSize = page then f x (g x) else g x) dirty := by
      intro hvalid
      rw [hm', SrmMirror.valid_change] at hvalid
      exact (h hvalid).changed hlaid page f
    refine wp_mono (ih (s := { s with mirror := m' }) (hlayout' ▸ hlaid) hchanged hpages) ?_
      fun _ _ => trivial
    rintro ok s' ⟨⟨hflash, hlayout⟩, hagrees⟩
    refine ⟨⟨hflash, hlayout.trans hlayout'⟩, fun hvalid => (hagrees hvalid).congr fun x _ => ?_⟩
    dsimp only
    rw [hlayout']
    -- the page just done is none of the others
    by_cases hx : x / s.mirror.layout.pageSize = page
    · simp [hx, hpage]
    · simp [hx]

/-- The loop brings the copy up to date with what the operation has done to the flash. -/
lemma wp_updatePages (h : s.Coherent dirty) {ok : Bool} {f : Nat → UInt8 → UInt8} {pages : List Nat}
    (hpages : pages.Nodup) {flash : Memory}
    (hok : ok = true → ∀ x, flash x =
      if x / s.mirror.layout.pageSize ∈ pages then f x (s.flash x) else s.flash x)
    (hfail : ok = false → ∀ x, x / s.mirror.layout.pageSize ∉ pages → flash x = s.flash x) :
    (updatePages ok f pages).wp (fun _ s' => s'.Coherent dirty) (fun _ => True)
      { s with flash := flash } := by
  cases ok with
  | true =>
    refine wp_mono (wp_updatePages_true (s := { s with flash := flash }) h.laid h.agrees f hpages) ?_
      fun _ _ => trivial
    rintro _ s' ⟨⟨hflash, hlayout⟩, hagrees⟩
    refine ⟨by rw [hlayout]; exact h.laid, fun hvalid => ?_⟩
    rw [hflash]
    exact (hagrees hvalid).congr fun x _ => hok rfl x
  | false =>
    -- everything on the pages of the operation is dirty until it is read again
    have hdirty : Coherent { s with flash := flash }
        (dirty ∪ {x | x / s.mirror.layout.pageSize ∈ pages}) := by
      refine ⟨h.laid, fun hvalid => ?_⟩
      refine ((h.agrees hvalid).mono Set.subset_union_left).congr fun x hx => ?_
      exact hfail rfl x fun hpage => hx (.inr hpage)
    rw [updatePages_false, wp_bind]
    refine wp_mono (wp_refreshPages hdirty pages) ?_ fun _ _ => trivial
    rintro _ s' ⟨-, hcoherent⟩
    exact hcoherent.mono fun x ⟨hx, hpage⟩ => hx.resolve_right hpage

lemma mem_srmPages {L : SrmLayout} {address length x : Nat}
    (hx : address ≤ x ∧ x < address + length) : x / L.pageSize ∈ srmPages L address length := by
  have hlow : address / L.pageSize ≤ x / L.pageSize := Nat.div_le_div_right hx.1
  have hhigh : x / L.pageSize ≤ (address + length - 1) / L.pageSize :=
    Nat.div_le_div_right (by omega)
  rw [srmPages, List.mem_range'_1]
  omega

/-- The pages of a range of whole pages hold no other bytes. -/
lemma of_mem_srmPages {L : SrmLayout} (h : L.Laid) {address length x : Nat}
    (haddress : L.pageSize ∣ address) (hlength : L.pageSize ∣ length) (hne : length ≠ 0)
    (hx : x / L.pageSize ∈ srmPages L address length) : address ≤ x ∧ x < address + length := by
  obtain ⟨a, rfl⟩ := haddress
  obtain ⟨n, rfl⟩ := hlength
  have hn : 0 < n := Nat.pos_of_ne_zero fun hn => hne (by simp [hn])
  have hlast : (L.pageSize * a + L.pageSize * n - 1) / L.pageSize < a + n := by
    rw [Nat.div_lt_iff_lt_mul h.page_pos, Nat.mul_comm (a + n), Nat.mul_add]
    have := Nat.mul_pos h.page_pos hn
    omega
  rw [srmPages, List.mem_range'_1, Nat.mul_div_cancel_left a h.page_pos] at hx
  have hlow : a ≤ x / L.pageSize := hx.1
  have hhigh : x / L.pageSize < a + n := by omega
  rw [Nat.le_div_iff_mul_le h.page_pos] at hlow
  rw [Nat.div_lt_iff_lt_mul h.page_pos] at hhigh
  rw [← Nat.mul_add, Nat.mul_comm _ a, Nat.mul_comm _ (a + n)]
  exact ⟨hlow, hhigh⟩

lemma nodup_srmPages (L : SrmLayout) (address length : Nat) : (srmPages L address length).Nodup :=
  List.nodup_range'

lemma wp_updateCopy (h : s.Coherent dirty) {ok : Bool} {flash : Memory} {f : Nat → UInt8 → UInt8}
    {address length : Nat} (hfits : address + length ≤ s.mirror.layout.size)
    (hout : ∀ x, ¬(address ≤ x ∧ x < address + length) → flash x = s.flash x)
    (hok : ok = true → length ≠ 0 → ∀ x, flash x =
      if x / s.mirror.layout.pageSize ∈ srmPages s.mirror.layout address length then f x (s.flash x)
      else s.flash x) :
    (updateCopy ok f address length).wp (fun _ s' => s'.Coherent dirty) (fun _ => True)
      { s with flash := flash } := by
  rw [updateCopy, wp_bind, wp_gets, wp_ite, wp_pure]
  refine ⟨fun hskip => ?_, fun hnot => ?_⟩
  · refine ⟨h.laid, fun hvalid => (h.agrees hvalid).congr fun x _ => hout x ?_⟩
    rcases hskip with hskip | hskip | hskip
    · exact absurd hvalid (by simpa using hskip)
    · omega
    · exact absurd hskip (by simpa using hfits)
  · push Not at hnot
    refine wp_updatePages h (nodup_srmPages _ _ _) (fun htrue => hok htrue hnot.2.1) fun _ x hx => ?_
    exact hout x fun hrange => hx (mem_srmPages hrange)

lemma wp_srmWrite (h : s.Coherent dirty) {address : Nat} {data : List UInt8}
    (hfits : address + data.length ≤ s.mirror.layout.size) :
    (srmWrite address data).wp (fun _ s' => s'.Coherent dirty) (fun _ => True) s := by
  rw [srmWrite, wp_bind, flashWrite, wp_op]
  refine ⟨wp_updateCopy h hfits (fun x => Memory.change_of_notMem _ _) fun _ _ x => ?_,
    fun n => wp_updateCopy h hfits (fun x => Memory.change_of_notMem _ _) nofun, fun _ => trivial⟩
  simp only [Memory.program, Memory.change]
  by_cases hx : address ≤ x ∧ x < address + data.length
  · rw [if_pos hx, if_pos (mem_srmPages hx)]
  · simp [if_neg hx]

lemma wp_srmErase (h : s.Coherent dirty) {address length : Nat}
    (haddress : s.mirror.layout.pageSize ∣ address) (hlength : s.mirror.layout.pageSize ∣ length)
    (hfits : address + length ≤ s.mirror.layout.size) :
    (srmErase address length).wp (fun _ s' => s'.Coherent dirty) (fun _ => True) s := by
  rw [srmErase, wp_bind, flashErase, wp_op]
  refine ⟨wp_updateCopy h hfits (fun x => Memory.change_of_notMem _ _) fun _ hne x => ?_,
    fun n => wp_updateCopy h hfits (fun x => Memory.change_of_notMem _ _) nofun, fun _ => trivial⟩
  simp only [Memory.erase, Memory.change]
  by_cases hx : address ≤ x ∧ x < address + length
  · rw [if_pos hx, if_pos (mem_srmPages hx)]
  · rw [if_neg hx, if_neg fun hmem => hx (of_mem_srmPages h.laid haddress hlength hne hmem)]

lemma wp_srmRefresh (h : s.Coherent dirty) {address length : Nat}
    (hfits : address + length ≤ s.mirror.layout.size) :
    (srmRefresh address length).wp
      (fun _ s' => s'.Coherent (dirty \ {x | address ≤ x ∧ x < address + length}))
      (fun _ => True) s := by
  rw [srmRefresh, wp_bind, wp_gets, wp_ite, wp_pure]
  refine ⟨fun hskip => ⟨h.laid, fun hvalid => (h.agrees hvalid).mono fun x hx => ⟨hx, ?_⟩⟩, fun _ => ?_⟩
  · rintro ⟨hlow, hhigh⟩
    rcases hskip with hskip | hskip | hskip
    · exact absurd hvalid (by simpa using hskip)
    · omega
    · omega
  · refine wp_mono (wp_refreshPages h _) ?_ fun _ _ => trivial
    rintro _ s' ⟨-, hcoherent⟩
    exact hcoherent.mono fun x ⟨hx, hpage⟩ => ⟨hx, fun hrange => hpage (mem_srmPages hrange)⟩

/-- A read is served from bytes of the copy that are not dirty, or from the flash. -/
lemma wp_srmRead (h : s.Coherent dirty) {address length : Nat}
    (hfits : address + length ≤ s.mirror.layout.size) :
    (srmRead address length).wp (fun data s' => s.Keeps s' ∧ s'.Coherent dirty ∧
      ((∀ x ∈ dirty, ¬(address ≤ x ∧ x < address + length)) →
        ∀ bytes ∈ data, bytes = s.flash.slice address length)) (fun _ => True) s := by
  rw [srmRead, wp_bind, wp_gets, wp_ite]
  refine ⟨fun hcopy => ?_, fun _ => ?_⟩
  · obtain ⟨hvalid, hne, -, hwithin⟩ := hcopy
    rw [wp_bind, setMirror, wp_modify, wp_pure]
    refine ⟨⟨rfl, rfl⟩, ⟨h.laid, h.agrees⟩, fun hclean bytes hbytes => ?_⟩
    obtain rfl := Option.mem_some_iff.mp hbytes
    refine List.map_congr_left fun i hi => ?_
    rw [List.mem_range] at hi
    -- the byte stands in the page of the first one, behind it
    have haddress : address / s.mirror.layout.pageSize * s.mirror.layout.pageSize +
        (address % s.mirror.layout.pageSize + i) = address + i := by
      rw [← Nat.add_assoc, Nat.div_add_mod']
    have hbyte := h.agrees hvalid (address / s.mirror.layout.pageSize) ?_
      (address % s.mirror.layout.pageSize + i) (by omega) ?_
    · rw [haddress] at hbyte
      rw [← hbyte, SrmMirror.byte, Nat.add_assoc]
    · rw [h.laid.pages_eq]
      exact Nat.div_lt_div_of_lt_of_dvd (Nat.dvd_trans h.laid.dvd_block h.laid.dvd_size) (by omega)
    · rw [haddress]
      exact fun hdirty => hclean _ hdirty ⟨by omega, by omega⟩
  · rw [wp_bind, setMirror, wp_modify]
    refine wp_mono wp_flashRead ?_ fun _ _ => trivial
    rintro data s' ⟨rfl, hdata⟩
    exact ⟨⟨rfl, rfl⟩, ⟨h.laid, h.agrees⟩, fun _ => hdata⟩

/-! ### The first copy -/

/-- The headers of the first `n` pages of a block, copied from the block. -/
lemma headers_copied (L : SrmLayout) (scratch : List UInt8) (first n : Nat) (m : SrmMirror) :
    ∃ headers, (List.range n).foldl (fun m i =>
      m.change ⟨.headers, (first + i) * srmHeaderBytes, srmHeaderBytes⟩
        fun j _ => scratch.getD (i * L.pageSize + j) 0) m = { m with headers := headers } ∧
      ∀ page j, j < srmHeaderBytes → headers (page * srmHeaderBytes + j) =
        if first ≤ page ∧ page < first + n then scratch.getD ((page - first) * L.pageSize + j) 0
        else m.headers (page * srmHeaderBytes + j) := by
  induction n with
  | zero => exact ⟨m.headers, rfl, fun page j _ => by rw [if_neg (by omega)]⟩
  | succ n ih =>
    obtain ⟨headers, heq, hheaders⟩ := ih
    rw [List.range_succ, List.foldl_append, heq]
    refine ⟨_, rfl, fun page j hj => ?_⟩
    by_cases hpage : page = first + n
    · subst hpage
      rw [if_pos (by omega), Nat.add_sub_cancel_left]
      exact Memory.change_of_mem _ _ hj
    · have hother : ¬((first + n) * srmHeaderBytes ≤ page * srmHeaderBytes + j ∧
          page * srmHeaderBytes + j < (first + n) * srmHeaderBytes + srmHeaderBytes) := by
        simp only [srmHeaderBytes] at hj ⊢
        omega
      refine (Memory.change_of_notMem _ _ hother).trans ((hheaders page j hj).trans ?_)
      by_cases hrange : first ≤ page ∧ page < first + n
      · rw [if_pos hrange, if_pos (by omega)]
      · rw [if_neg hrange, if_neg (by omega)]

lemma copyBlock_spec (L : SrmLayout) (block : Nat) (scratch : List UInt8) (m : SrmMirror) :
    (copyBlock L block scratch m).layout = m.layout ∧
      (copyBlock L block scratch m).valid = m.valid ∧
      (copyBlock L block scratch m).lookup = m.lookup.change (block * L.pageSize) L.pageSize
        (fun i _ => scratch.getD i 0) ∧
      ∀ page j, j < srmHeaderBytes →
        (copyBlock L block scratch m).headers (page * srmHeaderBytes + j) =
          if block * (L.blockSize / L.pageSize) ≤ page ∧
              page < block * (L.blockSize / L.pageSize) + L.blockSize / L.pageSize then
            scratch.getD ((page - block * (L.blockSize / L.pageSize)) * L.pageSize + j) 0
          else m.headers (page * srmHeaderBytes + j) := by
  obtain ⟨headers, heq, hheaders⟩ := headers_copied L scratch
    (block * (L.blockSize / L.pageSize)) (L.blockSize / L.pageSize)
    (m.change ⟨.lookup, block * L.pageSize, L.pageSize⟩ fun i _ => scratch.getD i 0)
  rw [copyBlock, heq]
  exact ⟨rfl, rfl, rfl, hheaders⟩

/-- The copy of the pages of the blocks read so far. -/
structure Filled (L : SrmLayout) (s : Mirrored) (blocks : Nat → Prop) : Prop where
  layout : s.mirror.layout = L
  unused : s.mirror.valid = false
  bytes : ∀ page, blocks (page / (L.blockSize / L.pageSize)) → ∀ i < (L.mirrored page).length,
    s.mirror.byte page i = s.flash (page * L.pageSize + i)

lemma Filled.copied {L : SrmLayout} {read : Nat → Prop} (h : Filled L s read) (hlaid : L.Laid)
    (block : Nat) {scratch : List UInt8}
    (hscratch : scratch = s.flash.slice (block * L.blockSize) L.blockSize) :
    Filled L { s with mirror := copyBlock L block scratch s.mirror }
      fun b => read b ∨ b = block := by
  obtain ⟨hlayout, hvalid, hlookups, hheaders⟩ := copyBlock_spec L block scratch s.mirror
  generalize copyBlock L block scratch s.mirror = m at *
  have hL : m.layout = L := hlayout.trans h.layout
  have hblock : L.blockSize / L.pageSize * L.pageSize = L.blockSize :=
    Nat.div_mul_cancel hlaid.dvd_block
  have hpos : 0 < L.blockSize / L.pageSize := Nat.div_pos
    (Nat.le_of_dvd hlaid.block_pos hlaid.dvd_block) hlaid.page_pos
  refine ⟨hL, hvalid.trans h.unused, fun page hpage i hi => ?_⟩
  have hle := SrmLayout.length_mirrored_le hlaid page
  by_cases hread : page / (L.blockSize / L.pageSize) = block
  · -- a page of this block has the bytes that were read
    have hpage : page = block * (L.blockSize / L.pageSize) + page % (L.blockSize / L.pageSize) := by
      rw [← hread, Nat.div_add_mod']
    have hstart : page * L.pageSize =
        block * L.blockSize + page % (L.blockSize / L.pageSize) * L.pageSize := by
      conv_lhs => rw [hpage, Nat.add_mul, Nat.mul_assoc, hblock]
    have hin : page % (L.blockSize / L.pageSize) * L.pageSize + i < L.blockSize := by
      have := Nat.mul_le_mul_right L.pageSize (Nat.mod_lt page hpos)
      rw [Nat.succ_mul, hblock] at this
      omega
    by_cases hlookup : page % (L.blockSize / L.pageSize) = 0
    · rw [hlookup, Nat.zero_mul, Nat.zero_add] at hin
      rw [SrmMirror.byte_lookup (by rwa [hL]), hL, hread, hstart, hlookup, Nat.zero_mul, Nat.add_zero,
        hlookups, Memory.change_of_mem _ _ (by omega), hscratch, Memory.getD_slice _ _ hin]
    · rw [SrmLayout.mirrored, if_neg hlookup] at hi
      have hlt := Nat.mod_lt page hpos
      have hwithin : page - block * (L.blockSize / L.pageSize) =
        page % (L.blockSize / L.pageSize) := by omega
      rw [SrmMirror.byte_header (by rwa [hL]), hheaders page i hi, if_pos (by omega), hscratch, hwithin,
        Memory.getD_slice _ _ hin, hstart, Nat.add_assoc]
  · -- the copy of any other page is as it was
    rw [← h.bytes page (hpage.resolve_right hread) i hi]
    by_cases hlookup : page % (L.blockSize / L.pageSize) = 0
    · rw [SrmMirror.byte_lookup (by rwa [hL]), SrmMirror.byte_lookup (by rwa [h.layout]), hL, h.layout,
        hlookups, Memory.change_of_notMem]
      rcases Nat.lt_or_gt_of_ne hread with hlt | hlt
      · have := Nat.mul_le_mul_right L.pageSize hlt
        rw [Nat.succ_mul] at this
        omega
      · have := Nat.mul_le_mul_right L.pageSize hlt
        rw [Nat.succ_mul] at this
        omega
    · rw [SrmLayout.mirrored, if_neg hlookup] at hi
      rw [SrmMirror.byte_header (by rwa [hL]), SrmMirror.byte_header (by rwa [h.layout]),
        hheaders page i hi, if_neg]
      rintro ⟨hlow, hhigh⟩
      exact hread (Nat.div_eq_of_lt_le hlow (by rwa [Nat.succ_mul]))

lemma wp_fillBlocks {L : SrmLayout} (hlaid : L.Laid) {read : Nat → Prop} (h : Filled L s read)
    (blocks : List Nat) :
    (fillBlocks L blocks).wp (fun ok s' => s'.mirror.layout = L ∧ s'.mirror.valid = false ∧
      (ok = true → Filled L s' fun b => read b ∨ b ∈ blocks)) (fun _ => True) s := by
  induction blocks generalizing s read with
  | nil => exact ⟨h.layout, h.unused, fun _ => by simpa using h⟩
  | cons block blocks ih =>
    rw [fillBlocks, wp_bind]
    refine wp_mono wp_flashRead ?_ fun _ _ => trivial
    rintro data s' ⟨hs, hdata⟩
    rw [hs]
    cases data with
    | none => exact ⟨h.layout, h.unused, nofun⟩
    | some scratch =>
      simp only [wp_bind, setMirror, wp_modify]
      refine wp_mono (ih (h.copied hlaid block (hdata scratch rfl))) ?_ fun _ _ => trivial
      rintro ok s' ⟨hlayout, hunused, hfilled⟩
      refine ⟨hlayout, hunused, fun hok => ?_⟩
      simpa [or_assoc] using hfilled hok

lemma wp_srmInit {size blockSize pageSize scratchSize : Nat} (lookup headers : Memory)
    (haccepts : srmAccepts size blockSize pageSize scratchSize = true) :
    (srmInit size blockSize pageSize scratchSize lookup headers).wp
      (fun _ s' => s'.Coherent ∅) (fun _ => True) s := by
  set L : SrmLayout := ⟨size, blockSize, pageSize, size / blockSize, size / pageSize⟩ with hL
  have hlaid : L.Laid := by
    simp only [srmAccepts, decide_eq_true_eq] at haccepts
    obtain ⟨hpage, hblock, hdiv, hsize, -, hheader⟩ := haccepts
    exact ⟨Nat.pos_of_ne_zero hpage, Nat.pos_of_ne_zero hblock, hheader, Nat.dvd_of_mod_eq_zero hdiv,
      Nat.dvd_of_mod_eq_zero hsize, rfl, rfl⟩
  simp only [srmInit, haccepts, setMirror, wp_bind, wp_modify, Bool.not_true, Bool.false_eq_true,
    if_false]
  have hnone : Filled L { s with mirror := ⟨L, lookup, headers, false, 0, 0, 0⟩ } fun _ => False :=
    ⟨rfl, rfl, by simp⟩
  refine wp_mono (wp_fillBlocks hlaid hnone _) ?_ fun _ _ => trivial
  rintro ok s' ⟨hlayout, hunused, hfilled⟩
  cases ok with
  | false => exact ⟨hlayout ▸ hlaid, fun hvalid => absurd hvalid (by simp [hunused])⟩
  | true =>
    refine ⟨hlayout ▸ hlaid, fun _ page hpage i hi _ => ?_⟩
    have hsize : L.pages = L.blockSize / L.pageSize * L.blocks := by
      rw [hlaid.pages_eq, hlaid.blocks_eq]
      refine Nat.div_eq_of_eq_mul_right hlaid.page_pos ?_
      rw [← Nat.mul_assoc, Nat.mul_div_cancel' hlaid.dvd_block, Nat.mul_div_cancel' hlaid.dvd_size]
    have hblock : page / (L.blockSize / L.pageSize) < L.blocks := by
      refine Nat.div_lt_of_lt_mul ?_
      rw [← hsize]
      simpa [hlayout] using hpage
    have hbyte := (hfilled rfl).bytes page (.inr (List.mem_range.mpr hblock)) i
      (by rw [← hlayout]; exact hi)
    rw [← hlayout] at hbyte
    exact hbyte

/-! ### Every run -/

/-- The states after a call of `srm_init` that found its parameters in order and any calls on ranges
inside the mirrored size, with the addresses that others have written and that were not refreshed
since. -/
inductive Reach : Mirrored → Set Nat → Prop where
  | init {s s' : Mirrored} {size blockSize pageSize scratchSize : Nat} {lookup headers : Memory}
      {fates rest : List Fate} {ok : Bool}
      (accepts : srmAccepts size blockSize pageSize scratchSize = true)
      (run : (srmInit size blockSize pageSize scratchSize lookup headers).run s fates =
        .done ok s' rest) : Reach s' ∅
  | read {s s' : Mirrored} {dirty : Set Nat} {address length : Nat} {fates rest : List Fate}
      {data : Option (List UInt8)} (reach : Reach s dirty)
      (fits : address + length ≤ s.mirror.layout.size)
      (run : (srmRead address length).run s fates = .done data s' rest) : Reach s' dirty
  | write {s s' : Mirrored} {dirty : Set Nat} {address : Nat} {data : List UInt8}
      {fates rest : List Fate} {ok : Bool} (reach : Reach s dirty)
      (fits : address + data.length ≤ s.mirror.layout.size)
      (run : (srmWrite address data).run s fates = .done ok s' rest) : Reach s' dirty
  | erase {s s' : Mirrored} {dirty : Set Nat} {address length : Nat} {fates rest : List Fate}
      {ok : Bool} (reach : Reach s dirty)
      (fits : address + length ≤ s.mirror.layout.size)
      (start : s.mirror.layout.pageSize ∣ address) (whole : s.mirror.layout.pageSize ∣ length)
      (run : (srmErase address length).run s fates = .done ok s' rest) : Reach s' dirty
  | refresh {s s' : Mirrored} {dirty : Set Nat} {address length : Nat} {fates rest : List Fate}
      {ok : Bool} (reach : Reach s dirty)
      (fits : address + length ≤ s.mirror.layout.size)
      (run : (srmRefresh address length).run s fates = .done ok s' rest) :
      Reach s' (dirty \ {x | address ≤ x ∧ x < address + length})
  | foreign {s : Mirrored} {dirty : Set Nat} (reach : Reach s dirty) (address : Nat)
      (data : List UInt8) :
      Reach { s with flash := s.flash.change address data.length fun i _ => data.getD i 0 }
        (dirty ∪ {x | address ≤ x ∧ x < address + data.length})

lemma Reach.coherent (h : Reach s dirty) : s.Coherent dirty := by
  induction h with
  | init accepts run =>
    have hinit := wp_done (wp_srmInit _ _ accepts) run
    exact hinit
  | read _ fits run ih => exact (wp_done (wp_srmRead ih fits) run).2.1
  | write _ fits run ih =>
    have hwrite := wp_done (wp_srmWrite ih fits) run
    exact hwrite
  | erase _ fits start whole run ih =>
    have herase := wp_done (wp_srmErase ih start whole fits) run
    exact herase
  | refresh _ fits run ih =>
    have hrefresh := wp_done (wp_srmRefresh ih fits) run
    exact hrefresh
  | @foreign s dirty _ address data ih =>
    refine ⟨ih.laid, fun hvalid => ((ih.agrees hvalid).mono Set.subset_union_left).congr ?_⟩
    intro x hx
    exact Memory.change_of_notMem s.flash (fun i _ => data.getD i 0) fun hrange => hx (.inr hrange)

/-- While the copy is used it has the bytes of the flash, and a read that succeeds returns them. -/
theorem mirror_follows_flash (h : Reach s dirty) :
    (s.mirror.valid = true → ∀ page < s.mirror.layout.pages,
      ∀ i < (s.mirror.layout.mirrored page).length,
        page * s.mirror.layout.pageSize + i ∉ dirty →
          s.mirror.byte page i = s.flash (page * s.mirror.layout.pageSize + i)) ∧
    ∀ address length fates data s' rest, address + length ≤ s.mirror.layout.size →
      (∀ x ∈ dirty, ¬(address ≤ x ∧ x < address + length)) →
      (srmRead address length).run s fates = .done (some data) s' rest →
        s'.flash = s.flash ∧ data = s.flash.slice address length := by
  refine ⟨h.coherent.agrees, ?_⟩
  intro address length fates data s' rest hfits hclean hrun
  obtain ⟨hkeeps, -, hdata⟩ := wp_done (wp_srmRead h.coherent hfits) hrun
  exact ⟨hkeeps.flash, hdata hclean data rfl⟩

/-- One block of two pages, erased, and the mirror of it. -/
def erasedBlock : Mirrored :=
  ((srmInit 12 12 6 12 (fun _ => 0) fun _ => 0).run
    ⟨fun _ => 0xFF, ⟨⟨0, 0, 0, 0, 0⟩, fun _ => 0, fun _ => 0, false, 0, 0, 0⟩⟩ []).state

/-- The header of the second page is copied and read. -/
theorem mirror_follows_flash_header :
    erasedBlock.mirror.valid = true ∧ erasedBlock.mirror.byte 1 4 = 0xFF ∧
      [0xFF, 0xFF] = erasedBlock.flash.slice 7 2 := by
  have hrun : (srmInit 12 12 6 12 (fun _ => 0) fun _ => 0).run
      ⟨fun _ => 0xFF, ⟨⟨0, 0, 0, 0, 0⟩, fun _ => 0, fun _ => 0, false, 0, 0, 0⟩⟩ [] =
        .done true erasedBlock [] := rfl
  have hreach : Reach erasedBlock ∅ := .init (by decide) hrun
  obtain ⟨s', hread⟩ : ∃ s', (srmRead 7 2).run erasedBlock [] = .done (some [0xFF, 0xFF]) s' [] :=
    ⟨_, rfl⟩
  refine ⟨rfl, (mirror_follows_flash hreach).1 rfl 1 (by decide) 4 (by decide) (by simp), ?_⟩
  exact ((mirror_follows_flash hreach).2 7 2 [] _ _ [] (by decide) (by simp) hread).2

end Mirrored

end ZoneLite
