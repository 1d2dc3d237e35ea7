import Mathlib
import AutoAttn.Bytes
import AutoAttn.Checks
import AutoAttn.Chunks
import AutoAttn.Text
import AutoAttn.UniqueKeys

/-!
# Reassembly of journal packets

A packet that does not fit one journal record is stored as fragments. ADD parses each fragment and puts the
packet together again once it has all of them. Fragments may come in any order and more than once, but any two
of them that contradict each other are an error.
-/

namespace Zkt

open Bytes Checks Chunks
open ZoneLite (ascii)

/-! ### Fragments -/

/-- `PACKET_MAX` -/
def packetMax : Nat := 65536

/-- `FRAGMENT_HEADER` -/
def fragmentHeader : Nat := 60

/-- `FRAGMENT_DATA` -/
def fragmentData : Nat := 512 - fragmentHeader

/-- `PacketFragment` -/
structure PacketFragment where
  group : List UInt8
  total : Int
  offset : Int
  packetDigest : List UInt8
  data : List UInt8
deriving DecidableEq

inductive PacketError where
  | invalidPacketFragment
  | invalidPacketExtent
  | invalidFragmentSet
  | conflictingPacketFragments
  | packetDigestMismatch
deriving DecidableEq

/-- `parse_fragment` -/
def parseFragment (raw : List UInt8) : Except PacketError PacketFragment := do
  refuse (¬ (fragmentHeader < raw.length ∧ raw.length ≤ 512) ∨ slice raw 0 4 ≠ ascii "ZJF1")
    .invalidPacketFragment
  let total := unle (slice raw 20 4)
  let offset := unle (slice raw 24 4)
  let data := raw.drop fragmentHeader
  refuse ((slice raw 4 16).all (· = 0) = true ∨ ¬ (512 < total ∧ total ≤ packetMax) ∨ total ≤ offset ∨
    offset % fragmentData ≠ 0 ∨ data.length ≠ min fragmentData (total - offset)) .invalidPacketExtent
  pure ⟨slice raw 4 16, total, offset, slice raw 28 32, data⟩

/-! ### Reassembly -/

/-- The number of fragments of a packet. -/
def fragmentCount (total : Nat) : Nat := count fragmentData total

/-- How many fragments `reassemble` takes. -/
def maxFragments : Nat := 2 * fragmentCount packetMax

/-- The first fragment describes a packet. -/
def ExtentValid (first : PacketFragment) : Prop :=
  512 < first.total ∧ first.total ≤ packetMax ∧ first.group.length = 16 ∧ first.group.any (· ≠ 0) = true ∧
    first.packetDigest.length = 32

instance (first : PacketFragment) : Decidable (ExtentValid first) := inferInstanceAs (Decidable (_ ∧ _ ∧ _ ∧ _ ∧ _))

/-- The fragment belongs to the packet of the first one. -/
def Fits (first part : PacketFragment) : Prop :=
  part.group = first.group ∧ part.total = first.total ∧ part.packetDigest = first.packetDigest ∧
    0 ≤ part.offset ∧ part.offset < first.total ∧ part.offset % fragmentData = 0 ∧
    part.data.length = min (fragmentData : Int) (first.total - part.offset)

instance (first part : PacketFragment) : Decidable (Fits first part) :=
  inferInstanceAs (Decidable (_ ∧ _ ∧ _ ∧ _ ∧ _ ∧ _ ∧ _))

/-- The data by offset. -/
abbrev Offsets := List (Int × List UInt8)

def Offsets.get? (offsets : Offsets) (offset : Int) : Option (List UInt8) :=
  (offsets.find? (·.1 = offset)).map (·.2)

/-- One fragment of the loop in `reassemble`. -/
def place (first : PacketFragment) (offsets : Offsets) (part : PacketFragment) : Except PacketError Offsets := do
  refuse (¬ Fits first part) .conflictingPacketFragments
  match offsets.get? part.offset with
  | some data => refuse (data ≠ part.data) .conflictingPacketFragments; pure offsets
  | none      => pure (offsets ++ [(part.offset, part.data)])

/-- `reassemble`. An incomplete packet is `none`. -/
def reassemble (sha256 : List UInt8 → List UInt8) (fragments : List PacketFragment) :
    Except PacketError (Option (List UInt8)) :=
  match fragments with
  | []         => .error .invalidFragmentSet
  | first :: _ => do
    refuse (maxFragments < fragments.length) .invalidFragmentSet
    refuse (¬ ExtentValid first) .invalidPacketExtent
    let offsets ← fragments.foldlM (place first) []
    let total := first.total.toNat
    if offsets.length ≠ fragmentCount total then pure none
    else
      let packet := (List.range (fragmentCount total)).flatMap fun i =>
        (offsets.get? (i * fragmentData : Nat)).getD []
      refuse (sha256 packet ≠ first.packetDigest) .packetDigestMismatch
      pure (some packet)

/-! ### The fragments of a packet -/

/-- The fragment with number `i`. -/
def fragmentAt (group digest packet : List UInt8) (i : Nat) : PacketFragment :=
  ⟨group, packet.length, (i * fragmentData : Nat), digest, chunk fragmentData packet i⟩

/-- The fragments of a packet. -/
def fragmentsOf (group digest packet : List UInt8) : List PacketFragment :=
  (List.range (fragmentCount packet.length)).map (fragmentAt group digest packet)

section Placed

variable {first : PacketFragment} {parts : List PacketFragment} {offsets offsets' : Offsets} {offset : Int}
  {data : List UInt8}

lemma Offsets.get?_eq_some (h : (offsets.map (·.1)).Nodup) :
    offsets.get? offset = some data ↔ (offset, data) ∈ offsets := by
  rw [Offsets.get?, Option.map_eq_some_iff]
  constructor
  · rintro ⟨entry, hentry, rfl⟩
    obtain ⟨hmem, rfl⟩ := (UniqueKeys.find?_eq_some h).1 hentry
    exact hmem
  · intro hmem
    exact ⟨(offset, data), (UniqueKeys.find?_eq_some h).2 ⟨hmem, rfl⟩, rfl⟩

lemma Offsets.get?_eq_none : offsets.get? offset = none ↔ offset ∉ offsets.map (·.1) := by
  rw [Offsets.get?, Option.map_eq_none_iff, List.find?_eq_none, List.mem_map]
  simp only [decide_eq_true_eq, not_exists, not_and]

lemma place_eq_ok {part : PacketFragment} :
    place first offsets part = .ok offsets' ↔ Fits first part ∧
      (offsets.get? part.offset = some part.data ∧ offsets = offsets' ∨
        offsets.get? part.offset = none ∧ offsets ++ [(part.offset, part.data)] = offsets') := by
  simp only [place, bind_eq_ok, refuse_eq_ok, not_not, exists_const]
  refine and_congr_right fun _ => ?_
  cases hget : offsets.get? part.offset with
  | some data => simp only [bind_eq_ok, refuse_eq_ok, pure_eq_ok, ne_eq, not_not, exists_const, Option.some.injEq,
      reduceCtorEq, false_and, or_false]
  | none => simp

/-- What is placed: the data of each fragment, once for each offset. -/
structure Placed (first : PacketFragment) (parts : List PacketFragment) (offsets : Offsets) : Prop where
  fits : ∀ part ∈ parts, Fits first part
  placed : ∀ part ∈ parts, (part.offset, part.data) ∈ offsets
  nodup : (offsets.map (·.1)).Nodup
  of_part : ∀ entry ∈ offsets, ∃ part ∈ parts, entry = (part.offset, part.data)

lemma Placed.step {part : PacketFragment} (h : Placed first parts offsets)
    (hplace : place first offsets part = .ok offsets') : Placed first (parts ++ [part]) offsets' := by
  obtain ⟨hfits, ⟨hget, rfl⟩ | ⟨hget, rfl⟩⟩ := place_eq_ok.1 hplace
  · refine ⟨?_, ?_, h.nodup, ?_⟩
    · exact List.forall_mem_append.2 ⟨h.fits, List.forall_mem_singleton.2 hfits⟩
    · exact List.forall_mem_append.2 ⟨h.placed, List.forall_mem_singleton.2 ((Offsets.get?_eq_some h.nodup).1 hget)⟩
    · intro entry hentry
      obtain ⟨part, hpart, rfl⟩ := h.of_part entry hentry
      exact ⟨part, List.mem_append_left _ hpart, rfl⟩
  · refine ⟨?_, ?_, ?_, ?_⟩
    · exact List.forall_mem_append.2 ⟨h.fits, List.forall_mem_singleton.2 hfits⟩
    · refine List.forall_mem_append.2 ⟨fun part hpart => ?_, List.forall_mem_singleton.2 ?_⟩
      · exact List.mem_append_left _ (h.placed part hpart)
      · exact List.mem_append_right _ (List.mem_singleton_self _)
    · rw [List.map_append, List.nodup_append']
      refine ⟨h.nodup, List.nodup_singleton _, ?_⟩
      rw [List.map_singleton, List.disjoint_singleton]
      exact Offsets.get?_eq_none.1 hget
    · refine List.forall_mem_append.2 ⟨fun entry hentry => ?_, List.forall_mem_singleton.2 ?_⟩
      · obtain ⟨part, hpart, rfl⟩ := h.of_part entry hentry
        exact ⟨part, List.mem_append_left _ hpart, rfl⟩
      · exact ⟨part, List.mem_append_right _ (List.mem_singleton_self _), rfl⟩

lemma placed_of_foldlM (h : parts.foldlM (place first) [] = .ok offsets) : Placed first parts offsets :=
  foldlM_ok h ⟨nofun, nofun, List.nodup_nil, nofun⟩ fun _ _ _ _ _ hdone hplace => hdone.step hplace

/-- Fragments that fit are placed if the offset of a fragment determines its data. -/
lemma exists_foldlM_place {f : Int → List UInt8}
    (h : ∀ part ∈ parts, Fits first part ∧ part.data = f part.offset) :
    ∃ offsets, parts.foldlM (place first) [] = .ok offsets := by
  refine exists_foldlM_ok (P := fun rest (offsets : Offsets) =>
    (∀ part ∈ rest, Fits first part ∧ part.data = f part.offset) ∧ ∀ entry ∈ offsets, entry.2 = f entry.1)
    ?_ ⟨h, nofun⟩
  rintro part rest offsets ⟨hrest, hoffsets⟩
  obtain ⟨⟨hfits, hdata⟩, hrest⟩ := List.forall_mem_cons.1 hrest
  cases hget : offsets.get? part.offset with
  | some data =>
    obtain ⟨entry, hentry, rfl⟩ := Option.map_eq_some_iff.1 hget
    have hsame : entry.2 = part.data := by
      rw [hoffsets entry (List.mem_of_find?_eq_some hentry), hdata]
      exact congrArg f (by simpa using List.find?_some hentry)
    refine ⟨offsets, ?_, hrest, hoffsets⟩
    exact place_eq_ok.2 ⟨hfits, .inl ⟨by rw [hget, hsame], rfl⟩⟩
  | none =>
    refine ⟨offsets ++ [(part.offset, part.data)], ?_, hrest, ?_⟩
    · exact place_eq_ok.2 ⟨hfits, .inr ⟨hget, rfl⟩⟩
    · exact List.forall_mem_append.2 ⟨hoffsets, List.forall_mem_singleton.2 hdata⟩

end Placed

/-! ### Completeness and conflicts -/

section Reassemble

variable {sha256 : List UInt8 → List UInt8} {fragments : List PacketFragment} {group packet digest : List UInt8}

lemma mem_fragmentsOf {part : PacketFragment} :
    part ∈ fragmentsOf group digest packet ↔
      ∃ i, i * fragmentData < packet.length ∧ fragmentAt group digest packet i = part := by
  simp only [fragmentsOf, fragmentCount, List.mem_map, List.mem_range, lt_count_iff (by decide : 0 < fragmentData)]

/-- A fragment of a packet is determined by its offset. -/
lemma eq_of_offset {part part' : PacketFragment} (h : part ∈ fragmentsOf group digest packet)
    (h' : part' ∈ fragmentsOf group digest packet) (hoffset : part.offset = part'.offset) : part = part' := by
  obtain ⟨i, -, rfl⟩ := mem_fragmentsOf.1 h
  obtain ⟨j, -, rfl⟩ := mem_fragmentsOf.1 h'
  have hij : i * fragmentData = j * fragmentData := Int.ofNat_inj.1 hoffset
  rw [Nat.eq_of_mul_eq_mul_right (by decide) hij]

lemma nodup_offsets : ((fragmentsOf group digest packet).map (·.offset)).Nodup := by
  rw [fragmentsOf, List.map_map]
  refine List.nodup_range.map_on fun i _ j _ hij => ?_
  exact Nat.eq_of_mul_eq_mul_right (by decide) (Int.ofNat_inj.1 hij)

/-- The fragments of a packet fit each other. -/
lemma fits_of_mem {first part : PacketFragment} (hfirst : first ∈ fragmentsOf group digest packet)
    (hpart : part ∈ fragmentsOf group digest packet) : Fits first part := by
  obtain ⟨i, -, rfl⟩ := mem_fragmentsOf.1 hfirst
  obtain ⟨j, hj, rfl⟩ := mem_fragmentsOf.1 hpart
  refine ⟨rfl, rfl, rfl, Int.natCast_nonneg _, Int.ofNat_lt.2 hj, ?_, ?_⟩
  · simp [fragmentAt]
  · simp only [fragmentAt, length_chunk]
    omega

/-- A fragment that fits the packet is at the offset of one of its fragments. -/
lemma exists_offset {first part : PacketFragment} (hfirst : first ∈ fragmentsOf group digest packet)
    (h : Fits first part) : ∃ other ∈ fragmentsOf group digest packet, other.offset = part.offset := by
  obtain ⟨-, -, -, hnonneg, hlt, hmod, -⟩ := h
  obtain ⟨j, -, rfl⟩ := mem_fragmentsOf.1 hfirst
  obtain ⟨n, hn⟩ := Int.eq_ofNat_of_zero_le hnonneg
  rw [hn] at hmod hlt
  have hdvd : n / fragmentData * fragmentData = n :=
    Nat.div_mul_cancel (Nat.dvd_of_mod_eq_zero (by exact_mod_cast hmod))
  refine ⟨_, mem_fragmentsOf.2 ⟨n / fragmentData, ?_, rfl⟩, ?_⟩
  · rw [hdvd]
    exact Int.ofNat_lt.1 hlt
  · rw [hn]
    exact congrArg Int.ofNat hdvd

lemma Fits.of_fits {first other part : PacketFragment} (hother : Fits first other) (hpart : Fits first part) :
    Fits other part := by
  obtain ⟨hgroup, htotal, hdigest, -⟩ := hother
  unfold Fits
  rwa [hgroup, htotal, hdigest]

/-- Two fragments at one offset have the same data. -/
lemma Placed.data_eq {first part other : PacketFragment} {offsets : Offsets} (h : Placed first fragments offsets)
    (hpart : part ∈ fragments) (hother : other ∈ fragments) (hoffset : other.offset = part.offset) :
    other.data = part.data := by
  have hentries := List.inj_on_of_nodup_map h.nodup (h.placed other hother) (h.placed part hpart) hoffset
  exact (Prod.ext_iff.1 hentries).2

/-- A list with a fragment that the packet does not have is an error. -/
lemma reassemble_conflict {x : PacketFragment} (hall : fragmentsOf group digest packet ⊆ fragments)
    (hne : packet ≠ []) (hx : x ∈ fragments) (hforeign : x ∉ fragmentsOf group digest packet) :
    ∃ e, reassemble sha256 fragments = .error e := by
  cases hresult : reassemble sha256 fragments with
  | error e => exact ⟨e, rfl⟩
  | ok result =>
    refine absurd ?_ hforeign
    obtain _ | ⟨first, rest⟩ := fragments
    · cases hx
    simp only [reassemble, bind_eq_ok, refuse_eq_ok, exists_const] at hresult
    obtain ⟨-, -, offsets, hfold, -⟩ := hresult
    have hplaced := placed_of_foldlM hfold
    have hzero : fragmentAt group digest packet 0 ∈ fragmentsOf group digest packet :=
      mem_fragmentsOf.2 ⟨0, by simpa [List.length_pos_iff] using hne, rfl⟩
    -- The fragment fits those of the packet, so that it is one of them.
    have hfits := (hplaced.fits _ (hall hzero)).of_fits (hplaced.fits x hx)
    obtain ⟨other, hother, hoffset⟩ := exists_offset hzero hfits
    have hdata := hplaced.data_eq hx (hall hother) hoffset
    have hsame := fits_of_mem hzero hother
    convert hother
    obtain ⟨hgroup, htotal, hdigest, -⟩ := hfits
    obtain ⟨hgroup', htotal', hdigest', -⟩ := hsame
    cases x
    cases other
    simp_all

lemma extentValid_fragmentAt (hpresent : group.length = 16 ∧ group.any (· ≠ 0) = true)
    (hlength : 512 < packet.length ∧ packet.length ≤ packetMax) (hdigest : digest.length = 32) (i : Nat) :
    ExtentValid (fragmentAt group digest packet i) :=
  ⟨Int.ofNat_lt.2 hlength.1, Int.ofNat_le.2 hlength.2, hpresent.1, hpresent.2, hdigest⟩

section Subset

variable (hsub : fragments ⊆ fragmentsOf group digest packet)

include hsub

/-- The fragments of a packet are placed. -/
lemma exists_placed {first : PacketFragment} (hfirst : first ∈ fragmentsOf group digest packet) :
    ∃ offsets, fragments.foldlM (place first) [] = .ok offsets ∧ Placed first fragments offsets := by
  have hdata : ∀ part ∈ fragments, Fits first part ∧
      part.data = chunk fragmentData packet (part.offset.toNat / fragmentData) := by
    intro part hpart
    refine ⟨fits_of_mem hfirst (hsub hpart), ?_⟩
    obtain ⟨i, -, rfl⟩ := mem_fragmentsOf.1 (hsub hpart)
    simp only [fragmentAt, Int.toNat_natCast]
    rw [Nat.mul_div_cancel _ (by decide)]
  obtain ⟨offsets, hfold⟩ := exists_foldlM_place (f := fun o => chunk fragmentData packet (o.toNat / fragmentData))
    hdata
  exact ⟨offsets, hfold, placed_of_foldlM hfold⟩

/-- There are as many offsets as in the packet if no fragment is missing. -/
lemma length_offsets {first : PacketFragment} {offsets : Offsets} (hplaced : Placed first fragments offsets) :
    offsets.length = fragmentCount packet.length ↔ fragmentsOf group digest packet ⊆ fragments := by
  have hcount : ((fragmentsOf group digest packet).map (·.offset)).length = fragmentCount packet.length := by
    simp [fragmentsOf]
  have hkeys : offsets.map (·.1) ⊆ (fragmentsOf group digest packet).map (·.offset) := by
    intro offset hoffset
    obtain ⟨entry, hentry, rfl⟩ := List.mem_map.1 hoffset
    obtain ⟨part, hpart, rfl⟩ := hplaced.of_part entry hentry
    exact List.mem_map_of_mem (hsub hpart)
  have hsubperm := List.subperm_of_subset hplaced.nodup hkeys
  have hlength : offsets.length = (offsets.map (·.1)).length := by rw [List.length_map]
  rw [← hcount, hlength]
  constructor
  · intro hlength part hpart
    have hmem := (hsubperm.perm_of_length_le hlength.ge).mem_iff.2 (List.mem_map_of_mem hpart)
    obtain ⟨entry, hentry, hoffset⟩ := List.mem_map.1 hmem
    obtain ⟨part', hpart', rfl⟩ := hplaced.of_part entry hentry
    rwa [eq_of_offset hpart (hsub hpart') hoffset.symm]
  · intro hall
    refine hsubperm.length_le.antisymm (List.subperm_of_subset nodup_offsets ?_).length_le
    intro offset hoffset
    obtain ⟨part, hpart, rfl⟩ := List.mem_map.1 hoffset
    exact List.mem_map_of_mem (f := Prod.fst) (hplaced.placed part (hall hpart))

variable (hbound : fragments.length ≤ maxFragments) (hpresent : group.length = 16 ∧ group.any (· ≠ 0) = true)
  (hlength : 512 < packet.length ∧ packet.length ≤ packetMax) (hdigest : digest.length = 32)

include hbound hpresent hlength hdigest

/-- All fragments, in any order and however often, give the packet. -/
lemma reassemble_complete (hsha : sha256 packet = digest) (hall : fragmentsOf group digest packet ⊆ fragments) :
    reassemble sha256 fragments = .ok (some packet) := by
  have hzero : fragmentAt group digest packet 0 ∈ fragments :=
    hall (mem_fragmentsOf.2 ⟨0, by omega, rfl⟩)
  obtain _ | ⟨first, rest⟩ := fragments
  · cases hzero
  have hfirst : first ∈ fragmentsOf group digest packet := hsub List.mem_cons_self
  obtain ⟨offsets, hfold, hplaced⟩ := exists_placed hsub hfirst
  have hget (i : Nat) (hi : i ∈ List.range (fragmentCount packet.length)) :
      (offsets.get? (i * fragmentData : Nat)).getD [] = chunk fragmentData packet i := by
    have hmem := hplaced.placed _ (hall (List.mem_map_of_mem hi))
    have hget : offsets.get? (i * fragmentData : Nat) = some (chunk fragmentData packet i) :=
      (Offsets.get?_eq_some hplaced.nodup).2 hmem
    rw [hget, Option.getD_some]
  have hpacket : ((List.range (fragmentCount packet.length)).flatMap fun i =>
      (offsets.get? (i * fragmentData : Nat)).getD []) = packet := by
    rw [List.flatMap_congr hget]
    exact flatMap_chunk (by decide) packet
  obtain ⟨j, -, rfl⟩ := mem_fragmentsOf.1 hfirst
  have hoffsets := (length_offsets hsub hplaced).2 hall
  simp only [reassemble, bind_eq_ok, refuse_eq_ok, not_not, exists_const]
  refine ⟨not_lt.2 hbound, extentValid_fragmentAt hpresent hlength hdigest j, offsets, hfold, ?_⟩
  simp only [fragmentAt, Int.toNat_natCast, hoffsets, ne_eq, not_true_eq_false, if_false, hpacket, hsha,
      bind_eq_ok, refuse_eq_ok, pure_eq_ok, exists_const, not_false_eq_true, and_self]

/-- If a fragment is missing, there is no packet yet. -/
lemma reassemble_incomplete (hne : fragments ≠ []) (hmissing : ¬ fragmentsOf group digest packet ⊆ fragments) :
    reassemble sha256 fragments = .ok none := by
  obtain _ | ⟨first, rest⟩ := fragments
  · exact absurd rfl hne
  have hfirst : first ∈ fragmentsOf group digest packet := hsub List.mem_cons_self
  obtain ⟨offsets, hfold, hplaced⟩ := exists_placed hsub hfirst
  obtain ⟨j, -, rfl⟩ := mem_fragmentsOf.1 hfirst
  have hoffsets := mt (length_offsets hsub hplaced).1 hmissing
  simp only [reassemble, bind_eq_ok, refuse_eq_ok, not_not, exists_const]
  refine ⟨not_lt.2 hbound, extentValid_fragmentAt hpresent hlength hdigest j, offsets, hfold, ?_⟩
  simp only [fragmentAt, Int.toNat_natCast, hoffsets, ne_eq, not_false_eq_true, if_true, pure_eq_ok]

end Subset

end Reassemble

end Zkt
