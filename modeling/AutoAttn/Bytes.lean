import Mathlib.Data.List.Basic
import Mathlib.Tactic.Ring

/-!
# Bytes

Slices, blocks of a fixed length, and little-endian integers.
-/

namespace Bytes

/-! ### Slices -/

/-- The part of `bytes` of length `n` that starts at `off`. -/
def slice (bytes : List UInt8) (off n : Nat) : List UInt8 := (bytes.drop off).take n

lemma slice_append_left {a b : List UInt8} {off n : Nat} (h : off + n ≤ a.length) :
    slice (a ++ b) off n = slice a off n := by
  simp only [slice]
  rw [List.drop_append_of_le_length (by omega), List.take_append_of_le_length (by simp; omega)]

lemma slice_append_right {a b : List UInt8} {off n : Nat} (h : a.length ≤ off) :
    slice (a ++ b) off n = slice b (off - a.length) n := by
  simp only [slice, List.drop_append]
  rw [List.drop_eq_nil_of_le h, List.nil_append]

lemma slice_take {a : List UInt8} {off n m : Nat} (h : off + n ≤ m) :
    slice (a.take m) off n = slice a off n := by
  simp only [slice, List.drop_take, List.take_take]
  congr 1
  omega

lemma length_slice (a : List UInt8) (off n : Nat) :
    (slice a off n).length = min n (a.length - off) := by
  simp [slice]

lemma length_slice_of_le {a : List UInt8} {off n : Nat} (h : off + n ≤ a.length) : (slice a off n).length = n := by
  rw [length_slice]
  omega

lemma slice_append_slice (a : List UInt8) (off n m : Nat) :
    slice a off n ++ slice a (off + n) m = slice a off (n + m) := by
  simp only [slice, ← List.drop_drop, List.take_add]

lemma slice_slice {a : List UInt8} {off n i m : Nat} (h : i + m ≤ n) :
    slice (slice a off n) i m = slice a (off + i) m := by
  simp only [slice, List.drop_take, List.drop_drop, List.take_take]
  congr 1
  omega

@[simp] lemma slice_self (a : List UInt8) : slice a 0 a.length = a := by
  simp [slice]

/-- The bytes with `data` in place of those from `off` on. -/
def patch (off : Nat) (data bytes : List UInt8) : List UInt8 :=
  bytes.take off ++ data ++ bytes.drop (off + data.length)

section Patch

variable {off i n : Nat} {data bytes : List UInt8}

lemma length_patch (h : off + data.length ≤ bytes.length) :
    (patch off data bytes).length = bytes.length := by
  simp only [patch, List.append_assoc, List.length_append, List.length_take, List.length_drop]
  omega

lemma slice_patch_before (hi : i + n ≤ off) (h : off + data.length ≤ bytes.length) :
    slice (patch off data bytes) i n = slice bytes i n := by
  rw [patch, List.append_assoc, slice_append_left (by rw [List.length_take]; omega), slice_take hi]

lemma slice_patch_after (hi : off + data.length ≤ i) (h : off + data.length ≤ bytes.length) :
    slice (patch off data bytes) i n = slice bytes i n := by
  have hlen : (bytes.take off ++ data).length = off + data.length := by
    rw [List.length_append, List.length_take]
    omega
  rw [patch, slice_append_right (by omega), hlen, slice, slice, List.drop_drop,
    Nat.add_sub_cancel' hi]

lemma slice_patch_self (h : off + data.length ≤ bytes.length) :
    slice (patch off data bytes) off data.length = data := by
  have hlen : (bytes.take off).length = off := by
    rw [List.length_take]
    omega
  rw [patch, List.append_assoc, slice_append_right hlen.le, hlen, Nat.sub_self,
    slice_append_left (by omega), slice_self]

lemma patch_patch {data' : List UInt8} (hd : data'.length = data.length)
    (h : off + data.length ≤ bytes.length) :
    patch off data (patch off data' bytes) = patch off data bytes := by
  have hlen : (bytes.take off).length = off := by
    rw [List.length_take]
    omega
  have htake : (patch off data' bytes).take off = bytes.take off := by
    rw [patch, List.append_assoc, List.take_append_of_le_length hlen.ge, List.take_take, min_self]
  have hdrop : (patch off data' bytes).drop (off + data.length) =
      bytes.drop (off + data.length) := by
    rw [patch, hd]
    exact List.drop_left' (by rw [List.length_append, hlen, hd])
  rw [patch, htake, hdrop, patch]

end Patch

/-! ### Blocks -/

/-- A byte array of a fixed length. -/
def Block (n : Nat) : Type := { b : List UInt8 // b.length = n }
deriving DecidableEq

namespace Block

variable {n : Nat}

def zero (n : Nat) : Block n := ⟨List.replicate n 0, List.length_replicate⟩

/-- The first `n` bytes, filled up with zeros. -/
def ofList (n : Nat) (b : List UInt8) : Block n := ⟨(b.rightpad n 0).take n, by simp; omega⟩

/-- Some byte is not zero. -/
def present (b : Block n) : Bool := b.val.any (· ≠ 0)

@[simp] lemma length_val (b : Block n) : b.val.length = n := b.property

/-- The block with `data` in place of the bytes from `off` on. -/
def patch (off : Nat) (data : List UInt8) (b : Block n) : Block n :=
  ofList n (Bytes.patch off data b.val)

@[simp] lemma ofList_val (b : Block n) : ofList n b.val = b := by
  apply Subtype.ext
  simp [ofList, List.rightpad, List.take_of_length_le]

lemma val_ofList {b : List UInt8} (h : b.length = n) : (ofList n b).val = b :=
  congrArg Subtype.val (ofList_val ⟨b, h⟩)

lemma val_patch {off : Nat} {data : List UInt8} (h : off + data.length ≤ n) (b : Block n) :
    (b.patch off data).val = Bytes.patch off data b.val :=
  val_ofList ((length_patch (b.length_val.symm ▸ h)).trans b.length_val)

end Block

/-! ### Little-endian integers -/

/-- The `n` bytes of `v`, least significant first; higher bytes of `v` are cut off. -/
def le : Nat → Nat → List UInt8
  | 0, _     => []
  | n + 1, v => UInt8.ofNat v :: le n (v / 256)

/-- The number whose bytes these are, least significant first. -/
def unle : List UInt8 → Nat
  | []      => 0
  | b :: bs => b.toNat + 256 * unle bs

@[simp] lemma length_le (n v : Nat) : (le n v).length = n := by
  induction n generalizing v with
  | zero => rfl
  | succ n ih => simp [le, ih]

lemma unle_lt (bs : List UInt8) : unle bs < 256 ^ bs.length := by
  induction bs with
  | nil => simp [unle]
  | cons b bs ih =>
    have hb : b.toNat < 256 := b.toNat_lt
    simp only [unle, List.length_cons, pow_succ]
    omega

lemma unle_le (n v : Nat) : unle (le n v) = v % 256 ^ n := by
  induction n generalizing v with
  | zero => simp [le, unle, Nat.mod_one]
  | succ n ih =>
    have h : v % 256 ^ (n + 1) = v % 256 + 256 * (v / 256 % 256 ^ n) := by
      rw [pow_succ' 256 n, Nat.mod_mul]
    simp only [le, unle, ih, h, UInt8.toNat_ofNat', Nat.reducePow]

lemma unle_le_of_lt {n v : Nat} (h : v < 256 ^ n) : unle (le n v) = v := by
  rw [unle_le, Nat.mod_eq_of_lt h]

lemma le_unle {bs : List UInt8} {n : Nat} (h : bs.length = n) : le n (unle bs) = bs := by
  subst h
  induction bs with
  | nil => rfl
  | cons b bs ih =>
    have hlow : UInt8.ofNat (b.toNat + 256 * unle bs) = b := by
      rw [← UInt8.toNat_inj, UInt8.toNat_ofNat', Nat.add_mul_mod_self_left]
      exact Nat.mod_eq_of_lt b.toNat_lt
    have hhigh : (b.toNat + 256 * unle bs) / 256 = unle bs := by
      have hb := b.toNat_lt
      omega
    rw [unle, List.length_cons, le, hlow, hhigh, ih]

end Bytes
