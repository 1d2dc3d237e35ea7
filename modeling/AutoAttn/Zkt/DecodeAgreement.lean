import AutoAttn.MixedRadix
import AutoAttn.Zkt.Clock
import AutoAttn.Zkt.Decode

/-!
# The firmware and ADD decode punches alike

Both sides read the same record from the same bytes, and they pack a time the same way. The packing
is a mixed radix number, so it orders the dates of its range as the calendar does.
-/

namespace Zkt

open Checks Bytes
open ZoneLite

/-! ### The dates of the profile -/

/-- The times that `encode_time` packs: whole seconds of 2000 to 2099 in Pakistan. -/
structure InProfile (t : DateTime) : Prop where
  year_ge : 2000 ≤ t.year
  year_le : t.year ≤ 2099
  month_pos : 1 ≤ t.month
  month_le : t.month ≤ 12
  day_pos : 1 ≤ t.day
  day_le : t.day ≤ DateTime.daysInMonth t.year t.month
  hour_le : t.hour ≤ 23
  minute_le : t.minute ≤ 59
  second_le : t.second ≤ 59
  whole : t.microsecond = 0
  pakistan : t.utcoffset = pakistanTime

namespace DateTime

lemma daysInMonth_le (year month : Nat) : daysInMonth year month ≤ 31 := by
  unfold daysInMonth
  split_ifs <;> omega

lemma make?_eq_some {year month day hour minute second : Nat} {offset : Option Int}
    {t : DateTime} : make? year month day hour minute second offset = some t ↔
      (1 ≤ year ∧ year ≤ 9999 ∧ 1 ≤ month ∧ month ≤ 12 ∧ 1 ≤ day ∧ day ≤ daysInMonth year month ∧
        hour ≤ 23 ∧ minute ≤ 59 ∧ second ≤ 59) ∧
      t = ⟨year, month, day, hour, minute, second, 0, offset⟩ := by
  unfold make?
  split_ifs with h
  · simp [h, eq_comm]
  · simp [h]

/-- A time of the profile is built from its fields. -/
lemma make?_of_inProfile {t : DateTime} (h : InProfile t) :
    make? t.year t.month t.day t.hour t.minute t.second pakistanTime = some t := by
  have hyear := h.year_ge
  have hyear' := h.year_le
  rw [make?_eq_some]
  refine ⟨⟨by omega, by omega, h.month_pos, h.month_le, h.day_pos, h.day_le, h.hour_le, h.minute_le,
    h.second_le⟩, ?_⟩
  rw [← h.whole, ← h.pakistan]

end DateTime

/-- The digits of a packed time, with their radices. -/
def digits (t : DateTime) : List (Nat × Nat) :=
  [(12, t.month - 1), (31, t.day - 1), (24, t.hour), (60, t.minute), (60, t.second)]

lemma encodeTime_eq_some {t : DateTime} {n : Nat} : encodeTime t = some n ↔
    t.utcoffset = pakistanTime ∧ (2000 ≤ t.year ∧ t.year ≤ 2099) ∧ t.microsecond = 0 ∧
      n = MixedRadix.value (t.year - 2000) (digits t) := by
  unfold encodeTime pakistanTime
  by_cases hoffset : t.utcoffset = some (5 * 3600)
  · by_cases hyear : ¬(2000 ≤ t.year ∧ t.year ≤ 2099) ∨ t.microsecond ≠ 0
    · simp only [hoffset, hyear, ne_eq, not_true, if_false, if_true, reduceCtorEq, true_and,
        false_iff]
      tauto
    · simp only [hoffset, hyear, ne_eq, not_true, if_false, Option.some_inj, true_and]
      push Not at hyear
      exact ⟨fun h => ⟨hyear.1, hyear.2, h.symm⟩, fun h => h.2.2.symm⟩
  · rw [if_pos hoffset]
    exact ⟨nofun, fun h => absurd h.1 hoffset⟩

/-- The packed time. -/
def packed (t : DateTime) : Nat := MixedRadix.value (t.year - 2000) (digits t)

lemma InProfile.encodeTime {t : DateTime} (h : InProfile t) : encodeTime t = some (packed t) :=
  encodeTime_eq_some.mpr ⟨h.pakistan, ⟨h.year_ge, h.year_le⟩, h.whole, rfl⟩

lemma InProfile.proper {t : DateTime} (h : InProfile t) : MixedRadix.Proper (digits t) := by
  have hday := h.day_le.trans (DateTime.daysInMonth_le _ _)
  obtain ⟨-, -, hm, hm', hd, -, hh, hmi, hs, -, -⟩ := h
  simp only [MixedRadix.Proper, digits, List.mem_cons, List.not_mem_nil, or_false, forall_eq_or_imp,
    forall_eq]
  omega

/-- Two times are packed alike only if they are the same. -/
lemma InProfile.eq_of_packed {s t : DateTime} (hs : InProfile s) (ht : InProfile t)
    (h : packed s = packed t) : s = t := by
  have hsplit := MixedRadix.split_value hs.proper (s.year - 2000)
  rw [show MixedRadix.value (s.year - 2000) (digits s) = packed t from h,
    show (digits s).map Prod.fst = (digits t).map Prod.fst from rfl,
    show packed t = MixedRadix.value (t.year - 2000) (digits t) from rfl,
    MixedRadix.split_value ht.proper _] at hsplit
  simp only [digits, List.map_cons, List.map_nil, List.reverse_cons, List.reverse_nil, List.nil_append,
    List.cons_append, Prod.mk.injEq, List.cons.injEq, and_true] at hsplit
  obtain ⟨hsy, -, hsm, -, hsd, -, -, -, -, hsw, hsp⟩ := hs
  obtain ⟨hty, -, htm, -, htd, -, -, -, -, htw, htp⟩ := ht
  obtain ⟨sy, sm, sd, sh, smi, ss, sw, sp⟩ := s
  obtain ⟨ty, tm, td, th, tmi, ts, tw, tp⟩ := t
  simp only at *
  subst hsw htw hsp htp
  simp only [DateTime.mk.injEq, and_true]
  omega

lemma InProfile.packed_le {t : DateTime} (h : InProfile t) : packed t ≤ 0xFFFFFFFF := by
  have hday := h.day_le.trans (DateTime.daysInMonth_le _ _)
  obtain ⟨-, hy, -, hm, -, -, hh, hmi, hs, -, -⟩ := h
  simp only [packed, digits, MixedRadix.value_cons, MixedRadix.value_nil]
  omega

/-- The packed time is taken apart into what it was put together from. -/
lemma InProfile.split {t : DateTime} (h : InProfile t) :
    MixedRadix.split (packed t) [60, 60, 24, 31, 12] =
      (t.year - 2000, [t.second, t.minute, t.hour, t.day - 1, t.month - 1]) :=
  MixedRadix.split_value h.proper _

/-- What `decode_time` accepts, and what it returns. -/
lemma decodeTime_eq_ok {n : Nat} {r : DateTime × DateTime} : decodeTime n = .ok r ↔
    InProfile r.1 ∧ n = packed r.1 ∧ r.2 = r.1.toUtc := by
  simp only [decodeTime, bind_eq_ok, refuse_eq_ok, require_eq_ok, pure_eq_ok, exists_const, not_not,
    ne_eq]
  constructor
  · rintro ⟨-, t, ht, again, hagain, hsame, rfl⟩
    obtain ⟨hoffset, hyear, hwhole, hvalue⟩ := encodeTime_eq_some.mp hagain
    obtain ⟨⟨-, -, hfields⟩, hfield⟩ := DateTime.make?_eq_some.mp ht
    obtain ⟨hm, hm', hd, hd', hh, hmi, hs⟩ := hfields
    refine ⟨?_, hsame.symm.trans hvalue, rfl⟩
    subst hfield
    exact ⟨hyear.1, hyear.2, hm, hm', hd, hd', hh, hmi, hs, rfl, rfl⟩
  · rintro ⟨hprofile, rfl, hutc⟩
    have hsplit := hprofile.split
    simp only [MixedRadix.split, Prod.mk.injEq, List.cons.injEq, and_true] at hsplit
    obtain ⟨hyear, hsecond, hminute, hhour, hday, hmonth⟩ := hsplit
    have hge := hprofile.year_ge
    have hm := hprofile.month_pos
    have hd := hprofile.day_pos
    refine ⟨Nat.not_lt.mpr hprofile.packed_le, r.1, ?_, packed r.1, hprofile.encodeTime, rfl,
      Prod.ext rfl hutc.symm⟩
    rw [hyear, hsecond, hminute, hhour, hday, hmonth, Nat.add_sub_cancel' hge,
      Nat.sub_add_cancel hm, Nat.sub_add_cancel hd]
    exact DateTime.make?_of_inProfile hprofile

/-! ### The order of the dates -/

namespace DateTime

/-- The days of a year before its `m`th month. -/
def monthDays (year m : Nat) : Nat :=
  ((List.range m).map fun m => daysInMonth year (m + 1)).sum

lemma monthDays_succ (year m : Nat) :
    monthDays year (m + 1) = monthDays year m + daysInMonth year (m + 1) := by
  simp [monthDays, List.range_succ]

lemma monthDays_mono (year : Nat) : Monotone (monthDays year) :=
  monotone_nat_of_le_succ fun m => by
    rw [monthDays_succ]
    omega

lemma monthDays_year (year : Nat) : monthDays year 12 = if isLeap year then 366 else 365 := by
  cases h : isLeap year <;> simp [monthDays, List.range_succ, daysInMonth, h]

/-- The days before a year. -/
def yearDays (year : Nat) : Nat :=
  (year - 1) * 365 + (year - 1) / 4 - (year - 1) / 100 + (year - 1) / 400

lemma days_eq (t : DateTime) :
    t.days = yearDays t.year + monthDays t.year (t.month - 1) + (t.day - 1) := rfl

lemma yearDays_succ {year : Nat} (h : 1 ≤ year) :
    yearDays (year + 1) = yearDays year + monthDays year 12 := by
  obtain ⟨past, rfl⟩ := Nat.exists_eq_add_of_le' h
  have hle : past / 100 ≤ past * 365 + past / 4 := by omega
  have hleap : isLeap (past + 1) = true ↔ 4 ∣ past + 1 ∧ (¬100 ∣ past + 1 ∨ 400 ∣ past + 1) := by
    simp [isLeap, Nat.dvd_iff_mod_eq_zero]
  have h100 : 100 ∣ past + 1 → 4 ∣ past + 1 := (dvd_trans (by decide) ·)
  have h400 : 400 ∣ past + 1 → 100 ∣ past + 1 := (dvd_trans (by decide) ·)
  rw [monthDays_year]
  simp only [yearDays, Nat.add_sub_cancel, Nat.succ_div, hleap]
  by_cases hfour : 4 ∣ past + 1
  · by_cases hcentury : 100 ∣ past + 1
    · by_cases hfourth : 400 ∣ past + 1
      · simp only [hfour, hcentury, hfourth, if_true, or_true, and_true]
        omega
      · simp only [hfour, hcentury, hfourth, if_true, if_false, not_true, or_false, and_false]
        omega
    · simp only [hfour, hcentury, mt h400 hcentury, if_true, if_false, not_false_iff, or_false,
        and_true]
      omega
  · simp only [hfour, mt h100 hfour, mt h400 (mt h100 hfour), if_false, false_and]
    omega

lemma yearDays_le {year year' : Nat} (h : 1 ≤ year) (hle : year ≤ year') :
    yearDays year ≤ yearDays year' := by
  induction hle with
  | refl => exact le_rfl
  | step hle ih =>
    rw [yearDays_succ (h.trans hle)]
    omega

end DateTime

/-- The date of a packed time. -/
def packedDate (t : DateTime) : Nat := ((t.year - 2000) * 12 + (t.month - 1)) * 31 + (t.day - 1)

/-- The packing orders the dates as the calendar does. -/
lemma days_lt_days {s t : DateTime} (hs : InProfile s) (ht : InProfile t)
    (h : packedDate s < packedDate t) : s.days < t.days := by
  have hmonth : s.days < DateTime.yearDays s.year + DateTime.monthDays s.year s.month := by
    have hsucc := DateTime.monthDays_succ s.year (s.month - 1)
    rw [Nat.sub_add_cancel hs.month_pos] at hsucc
    rw [DateTime.days_eq, hsucc]
    have := hs.day_le
    have := hs.day_pos
    omega
  have hyear : s.days < DateTime.yearDays (s.year + 1) := by
    have := DateTime.monthDays_mono s.year hs.month_le
    rw [DateTime.yearDays_succ (by have := hs.year_ge; omega)]
    omega
  have hcases : s.year < t.year ∨ s.year = t.year ∧ (s.month < t.month ∨
      s.month = t.month ∧ s.day < t.day) := by
    have hsday := hs.day_le.trans (DateTime.daysInMonth_le _ _)
    have htday := ht.day_le.trans (DateTime.daysInMonth_le _ _)
    obtain ⟨hsy, -, hsm, hsm', hsd, -⟩ := hs
    obtain ⟨hty, -, htm, htm', htd, -⟩ := ht
    simp only [packedDate] at h
    omega
  rw [DateTime.days_eq t]
  rcases hcases with hlt | ⟨heq, hlt | ⟨heq', hlt⟩⟩
  · have : DateTime.yearDays (s.year + 1) ≤ DateTime.yearDays t.year :=
      DateTime.yearDays_le (by omega) hlt
    omega
  · have := DateTime.monthDays_mono s.year (Nat.le_sub_one_of_lt hlt)
    rw [← heq]
    omega
  · rw [DateTime.days_eq, heq, heq']
    have := hs.day_pos
    omega

lemma days_eq_days {s t : DateTime} (hs : InProfile s) (ht : InProfile t)
    (h : packedDate s = packedDate t) : s.days = t.days := by
  have hsday := hs.day_le.trans (DateTime.daysInMonth_le _ _)
  have htday := ht.day_le.trans (DateTime.daysInMonth_le _ _)
  obtain ⟨hyear, hmonth, hday⟩ : s.year = t.year ∧ s.month = t.month ∧ s.day = t.day := by
    obtain ⟨hsy, -, hsm, hsm', hsd, -⟩ := hs
    obtain ⟨hty, -, htm, htm', htd, -⟩ := ht
    simp only [packedDate] at h
    omega
  rw [DateTime.days_eq, DateTime.days_eq, hyear, hmonth, hday]

/-- The packing orders the times as the calendar does. -/
lemma packed_lt_iff {s t : DateTime} (hs : InProfile s) (ht : InProfile t) (offset : Int) :
    packed s < packed t ↔ s.instant offset < t.instant offset := by
  have hpacked : ∀ u : DateTime, packed u =
      ((packedDate u * 24 + u.hour) * 60 + u.minute) * 60 + u.second := fun _ => rfl
  have hinstant : ∀ u : DateTime, InProfile u → u.instant offset =
      (u.days * 86400 + u.hour * 3600 + u.minute * 60 + u.second - offset) * 1000000 := by
    intro u hu
    simp [DateTime.instant, hu.whole]
  rw [hpacked, hpacked, hinstant s hs, hinstant t ht]
  have hsh := hs.hour_le
  have hsm := hs.minute_le
  have hss := hs.second_le
  have hth := ht.hour_le
  have htm := ht.minute_le
  have hts := ht.second_le
  rcases Nat.lt_trichotomy (packedDate s) (packedDate t) with h | h | h
  · have := days_lt_days hs ht h
    omega
  · have := days_eq_days hs ht h
    omega
  · have := days_lt_days ht hs h
    omega

/-! ### Fields of the records -/

lemma slice_eq_map {data : List UInt8} {off n : Nat} (h : off + n ≤ data.length) :
    slice data off n = (List.range n).map fun i => data.getD (off + i) 0 := by
  refine List.ext_getElem (by simp [length_slice]; omega) fun i hi _ => ?_
  simp only [length_slice] at hi
  simp [slice, List.getD_eq_getElem?_getD, List.getElem?_eq_getElem (show off + i < data.length by omega)]

/-- The four bytes are put together without overlap. -/
lemma or_shiftLeft_eq {a b c : Nat} (ha : a < 256) (hb : b < 256) (hc : c < 256) (d : Nat) :
    a ||| b <<< 8 ||| c <<< 16 ||| d <<< 24 = a + 256 * (b + 256 * (c + 256 * d)) := by
  have hab : a ||| b <<< 8 = b <<< 8 + a := by
    rw [Nat.or_comm, Nat.shiftLeft_add_eq_or_of_lt ha]
  have hab' : b <<< 8 + a < 2 ^ 16 := by
    rw [Nat.shiftLeft_eq]
    omega
  have hc : (b <<< 8 + a) ||| c <<< 16 = c <<< 16 + (b <<< 8 + a) := by
    rw [Nat.or_comm, Nat.shiftLeft_add_eq_or_of_lt hab']
  have hc' : c <<< 16 + (b <<< 8 + a) < 2 ^ 24 := by
    rw [Nat.shiftLeft_eq, Nat.shiftLeft_eq]
    omega
  rw [hab, hc, Nat.or_comm, ← Nat.shiftLeft_add_eq_or_of_lt hc', Nat.shiftLeft_eq, Nat.shiftLeft_eq,
    Nat.shiftLeft_eq]
  omega

lemma le32_eq {data : List UInt8} {off : Nat} (h : off + 4 ≤ data.length) :
    le32 data off = unle (slice data off 4) := by
  have hlt : ∀ i, (data.getD i 0).toNat < 256 := fun i => UInt8.toNat_lt _
  rw [le32, or_shiftLeft_eq (hlt _) (hlt _) (hlt _), slice_eq_map h]
  simp [List.range_succ, unle]

/-- The characters that stand for themselves. -/
def Printable (b : UInt8) : Prop := 32 ≤ b ∧ b ≤ 126

lemma idChars_eq_some {field id : List UInt8} : idChars field = some id ↔
    id = field.takeWhile (· != 0) ∧ ∀ b ∈ id, Printable b := by
  induction field generalizing id with
  | nil =>
    simp only [idChars, Option.some_inj, List.takeWhile_nil]
    exact ⟨by rintro rfl; simp, fun h => h.1.symm⟩
  | cons b field ih =>
    rw [idChars]
    by_cases hzero : b = 0
    · simp only [hzero, if_true, Option.some_inj, bne_self_eq_false, Bool.false_eq_true,
        not_false_eq_true, List.takeWhile_cons_of_neg]
      exact ⟨by rintro rfl; simp, fun h => h.1.symm⟩
    · have htake : (b :: field).takeWhile (· != 0) = b :: field.takeWhile (· != 0) := by simp [hzero]
      rw [if_neg hzero, htake]
      by_cases hprint : b < 32 ∨ 126 < b
      · rw [if_pos hprint]
        refine ⟨nofun, ?_⟩
        rintro ⟨rfl, hall⟩
        obtain ⟨hlow, hhigh⟩ := hall b List.mem_cons_self
        rcases hprint with hlt | hlt
        · exact absurd hlt (UInt8.not_lt.mpr hlow)
        · exact absurd hlt (UInt8.not_lt.mpr hhigh)
      · have hself : Printable b := by
          rw [not_or, UInt8.not_lt, UInt8.not_lt] at hprint
          exact hprint
        rw [if_neg hprint, Option.map_eq_some_iff]
        constructor
        · rintro ⟨rest, hrest, rfl⟩
          obtain ⟨rfl, hall⟩ := ih.mp hrest
          exact ⟨rfl, by simpa [hself] using hall⟩
        · rintro ⟨rfl, hall⟩
          exact ⟨_, ih.mpr ⟨rfl, fun c hc => hall c (List.mem_cons_of_mem _ hc)⟩, rfl⟩

/-- The blanks that are cut off are printable. -/
lemma printable_rdropWhile (chars : List UInt8) :
    (∀ b ∈ chars.rdropWhile (· == 0x20), Printable b) ↔ ∀ b ∈ chars, Printable b := by
  constructor
  · intro h b hb
    rw [← List.mem_reverse, ← List.takeWhile_append_dropWhile (p := (· == 0x20)) (l := chars.reverse),
      List.mem_append] at hb
    rcases hb with hb | hb
    · have hblank := List.mem_takeWhile_imp hb
      rw [beq_iff_eq] at hblank
      subst hblank
      exact ⟨by decide, by decide⟩
    · exact h b (List.mem_reverse.mpr hb)
  · exact fun h b hb => h b ((List.rdropWhile_prefix _ _).subset hb)

/-- Both sides read a text of the same characters, and neither reads one that is empty. -/
lemma textId_eq_ok {field : List UInt8} {text : String} : textId field = .ok text ↔
    ∃ id, textUserId field = some id ∧ id ≠ [] ∧
      text = String.ofList (id.map fun b => Char.ofNat b.toNat) := by
  have hid : ∀ id, textUserId field = some id ↔
      id = (field.takeWhile (· != 0)).rdropWhile (· == 0x20) ∧ ∀ b ∈ id, Printable b := by
    intro id
    simp only [textUserId, Option.map_eq_some_iff, idChars_eq_some]
    constructor
    · rintro ⟨_, ⟨rfl, hall⟩, rfl⟩
      exact ⟨rfl, (printable_rdropWhile _).mpr hall⟩
    · rintro ⟨rfl, hall⟩
      exact ⟨_, ⟨rfl, (printable_rdropWhile _).mp hall⟩, rfl⟩
  simp only [textId, bind_eq_ok, refuse_eq_ok, pure_eq_ok, exists_const, hid]
  constructor
  · rintro ⟨hnot, rfl⟩
    rw [not_or] at hnot
    refine ⟨_, ⟨rfl, fun b hb => ?_⟩, hnot.1, rfl⟩
    have hb' := hnot.2
    simp only [List.any_eq_true, not_exists, not_and, Bool.or_eq_true, decide_eq_true_eq,
      not_or, UInt8.not_lt] at hb'
    exact hb' b hb
  · rintro ⟨_, ⟨rfl, hall⟩, hne, rfl⟩
    refine ⟨?_, rfl⟩
    simp only [List.any_eq_true, not_or, not_exists, not_and, Bool.or_eq_true, decide_eq_true_eq,
      UInt8.not_lt]
    exact ⟨hne, hall⟩

lemma toUInt8_ofNat (b : UInt8) : (Char.ofNat b.toNat).toUInt8 = b := by
  have hlt := b.toNat_lt
  have hvalid : b.toNat.isValidChar := .inl (by omega)
  apply UInt8.toNat_inj.mp
  simp only [Char.ofNat, hvalid, dif_pos]
  rw [Char.toUInt8]
  simp [Char.ofNatAux]

lemma ascii_ofList (id : List UInt8) :
    ascii (String.ofList (id.map fun b => Char.ofNat b.toNat)) = id := by
  rw [ascii, String.toList_ofList, List.map_map]
  exact (List.map_congr_left fun b _ => toUInt8_ofNat b).trans (List.map_id id)

lemma ascii_toString (n : Nat) : ascii (toString n) = decimal n := by
  simp [ascii, decimal, toString, Nat.repr]

lemma zktClockFieldsValid_iff {year month day hour minute second : Nat} :
    zktClockFieldsValid year month day hour minute second = true ↔
      InProfile ⟨year, month, day, hour, minute, second, 0, pakistanTime⟩ := by
  by_cases hrange : year < 2000 ∨ 2099 < year ∨ month < 1 ∨ 12 < month ∨ 23 < hour ∨ 59 < minute ∨
      59 < second
  · rw [zktClockFieldsValid, if_pos hrange]
    refine ⟨nofun, ?_⟩
    rintro ⟨hy, hy', hm, hm', -, -, hh, hmi, hs, -, -⟩
    dsimp only at hy hy' hm hm' hh hmi hs
    omega
  · have hdays : (if month = 2 ∧ year % 4 = 0 ∧ (year % 100 ≠ 0 ∨ year % 400 = 0) then
        [31, 28, 31, 30, 31, 30, 31, 31, 30, 31, 30, 31].getD (month - 1) 0 + 1
        else [31, 28, 31, 30, 31, 30, 31, 31, 30, 31, 30, 31].getD (month - 1) 0) =
        DateTime.daysInMonth year month := by
      obtain ⟨hm, hm'⟩ : 1 ≤ month ∧ month ≤ 12 := by omega
      interval_cases month <;> simp [DateTime.daysInMonth, DateTime.isLeap]
    rw [zktClockFieldsValid, if_neg hrange]
    dsimp only
    rw [hdays, decide_eq_true_eq]
    constructor
    · rintro ⟨hd, hd'⟩
      exact ⟨by dsimp only; omega, by dsimp only; omega, by dsimp only; omega, by dsimp only; omega,
        hd, hd', by dsimp only; omega, by dsimp only; omega, by dsimp only; omega, rfl, rfl⟩
    · exact fun h => ⟨h.day_pos, h.day_le⟩

/-! ### Live records -/

/-- Where the time of a live record stands. -/
def liveBase (raw : List UInt8) : Nat := if raw.length = 12 then 4 else 24

/-- A byte of the time of a live record. -/
def liveField (raw : List UInt8) (i : Nat) : Nat := (raw.getD (liveBase raw + 2 + i) 0).toNat

/-- The time of a live record. -/
def liveTime (raw : List UInt8) : DateTime :=
  ⟨2000 + liveField raw 0, liveField raw 1, liveField raw 2, liveField raw 3, liveField raw 4,
    liveField raw 5, 0, pakistanTime⟩

/-- The user id of a live record as the firmware reads it. -/
def liveId (raw : List UInt8) : Option (List UInt8) :=
  if raw.length = 12 then some (decimal (le32 raw 0)) else textUserId (raw.take 24)

/-- The user id of a live record as ADD reads it. -/
def liveText (raw : List UInt8) : Except DecodeError String :=
  if raw.length = 12 then .ok (toString (unle (slice raw 0 4))) else textId (slice raw 0 24)

/-- The texts that both sides read are the same. -/
lemma exists_textId {field id : List UInt8} :
    (∃ text, textId field = .ok text ∧ ascii text = id) ↔ textUserId field = some id ∧ id ≠ [] := by
  simp only [textId_eq_ok]
  constructor
  · rintro ⟨text, ⟨id, hid, hne, rfl⟩, rfl⟩
    rw [ascii_ofList]
    exact ⟨hid, hne⟩
  · rintro ⟨hid, hne⟩
    exact ⟨_, ⟨id, hid, hne, rfl⟩, ascii_ofList id⟩

lemma decimal_ne_nil (n : Nat) : decimal n ≠ [] := by
  simp [decimal, Nat.toDigits_ne_nil]

lemma exists_liveText {raw id : List UInt8} :
    (∃ text, liveText raw = .ok text ∧ ascii text = id) ↔ liveId raw = some id ∧ id ≠ [] := by
  unfold liveText liveId
  split_ifs with hshort
  · rw [← le32_eq (by omega)]
    simp only [Except.ok.injEq, exists_eq_left', ascii_toString, Option.some_inj]
    exact ⟨by rintro rfl; exact ⟨rfl, decimal_ne_nil _⟩, fun h => h.1⟩
  · exact exists_textId

/-- The firmware packs the fields of a time as ADD does. -/
lemma packed_fields {y mo d h mi s : Nat}
    (hprofile : InProfile ⟨2000 + y, mo, d, h, mi, s, 0, pakistanTime⟩) :
    ((((y * 12 + mo - 1) * 31 + d - 1) * 24 + h) * 60 + mi) * 60 + s =
      packed ⟨2000 + y, mo, d, h, mi, s, 0, pakistanTime⟩ := by
  have hm : 1 ≤ mo := hprofile.month_pos
  have hd : 1 ≤ d := hprofile.day_pos
  simp only [packed, digits, MixedRadix.value_cons, MixedRadix.value_nil, Nat.add_sub_cancel_left]
  rw [Nat.add_sub_assoc hd, Nat.add_sub_assoc hm]

lemma relParseLiveRecord_eq_some {raw : List UInt8} (hsize : raw.length ∈ liveSizes)
    {r : RelLiveRecord} : relParseLiveRecord raw = some r ↔
      ∃ id, (liveId raw = some id ∧ id ≠ []) ∧ InProfile (liveTime raw) ∧
        r = ⟨id, raw.getD (liveBase raw) 0, raw.getD (liveBase raw + 1) 0, packed (liveTime raw)⟩ := by
  have hlength : ¬(raw.length ≠ 12 ∧ raw.length ≠ 32 ∧ raw.length ≠ 36 ∧ raw.length ≠ 52) := by
    simp only [liveSizes, Finset.mem_insert, Finset.mem_singleton] at hsize
    omega
  have hread : (if raw.length = 12 then some (decimal (le32 raw 0), 4)
      else (textUserId (raw.take 24)).map (·, 24)) = (liveId raw).map (·, liveBase raw) := by
    unfold liveId liveBase
    split_ifs <;> rfl
  rw [relParseLiveRecord, if_neg hlength, hread]
  cases hid : liveId raw with
  | none => simp
  | some id =>
    have hfield : ∀ i, (raw.getD (liveBase raw + 2 + i) 0).toNat = liveField raw i := fun _ => rfl
    simp only [Option.map_some, Option.some_inj, hfield]
    by_cases hprofile : InProfile (liveTime raw)
    · have hpacked : _ = packed (liveTime raw) := packed_fields hprofile
      have hle := hprofile.packed_le
      rw [if_neg (by simpa using zktClockFieldsValid_iff.mpr hprofile), hpacked,
        if_neg (Nat.not_lt.mpr hle)]
      by_cases hne : id = []
      · simp [hne]
      · simp only [if_neg hne, Option.some_inj, hprofile, true_and]
        exact ⟨fun h => ⟨id, ⟨rfl, hne⟩, h.symm⟩, by rintro ⟨_, ⟨rfl, -⟩, rfl⟩; rfl⟩
    · rw [if_pos (by simpa using mt zktClockFieldsValid_iff.mp hprofile)]
      simp [hprofile]

lemma makeFacts_eq_ok {userId : Option String} {uid : Option Nat} {encoded : Nat}
    {status punch : UInt8} {offset length : Nat} {facts : PunchFacts} :
    makeFacts userId uid encoded status punch offset length = .ok facts ↔
      ∃ t, InProfile t ∧ encoded = packed t ∧
        facts = ⟨userId, uid, encoded, t, t.toUtc, status.toNat, punch.toNat, offset, length⟩ := by
  simp only [makeFacts, bind_eq_ok, decodeTime_eq_ok, pure_eq_ok, Prod.exists]
  constructor
  · rintro ⟨t, utc, ⟨hprofile, rfl, rfl⟩, rfl⟩
    exact ⟨t, hprofile, rfl, rfl⟩
  · rintro ⟨t, hprofile, rfl, rfl⟩
    exact ⟨t, t.toUtc, ⟨hprofile, rfl, rfl⟩, rfl⟩

lemma decodeLiveRecord_eq_ok {raw : List UInt8} (hsize : raw.length ∈ liveSizes) {offset : Nat}
    {facts : PunchFacts} : decodeLiveRecord raw raw.length offset = .ok facts ↔
      ∃ text, liveText raw = .ok text ∧ InProfile (liveTime raw) ∧ facts =
        ⟨some text, none, packed (liveTime raw), liveTime raw, (liveTime raw).toUtc,
          (raw.getD (liveBase raw) 0).toNat, (raw.getD (liveBase raw + 1) 0).toNat, offset,
          raw.length⟩ := by
  have htext : (if liveBase raw = 4 then pure (toString (unle (slice raw 0 4)))
      else textId (slice raw 0 24) : Except DecodeError String) = liveText raw := by
    unfold liveText liveBase
    by_cases hshort : raw.length = 12
    · rw [if_pos hshort, if_pos rfl, if_pos hshort]
      rfl
    · rw [if_neg hshort, if_neg (by decide), if_neg hshort]
  have hbase : (if raw.length = 12 then 4 else 24) = liveBase raw := rfl
  have hfield : ∀ i, (raw.getD (liveBase raw + 2 + i) 0).toNat = liveField raw i := fun _ => rfl
  rw [decodeLiveRecord]
  simp only [bind_eq_ok, refuse_eq_ok, exists_const, hsize, not_true, ne_eq, or_false, not_false_iff,
    true_and, require_eq_ok, hbase, htext, hfield]
  refine exists_congr fun text => and_congr_right fun _ => ?_
  constructor
  · rintro ⟨t, ht, n, hn, hfacts⟩
    obtain ⟨⟨-, -, hm, hm', hd, hd', hh, hmi, hs⟩, hlive⟩ := DateTime.make?_eq_some.mp ht
    obtain ⟨hoffset, hyear, hwhole, hvalue⟩ := encodeTime_eq_some.mp hn
    obtain rfl : t = liveTime raw := hlive
    have hprofile : InProfile (liveTime raw) :=
      ⟨hyear.1, hyear.2, hm, hm', hd, hd', hh, hmi, hs, rfl, rfl⟩
    obtain ⟨t, htprofile, rfl, rfl⟩ := makeFacts_eq_ok.mp hfacts
    obtain rfl := htprofile.eq_of_packed hprofile hvalue
    exact ⟨hprofile, rfl⟩
  · rintro ⟨hprofile, rfl⟩
    exact ⟨liveTime raw, DateTime.make?_of_inProfile hprofile, _, hprofile.encodeTime,
      makeFacts_eq_ok.mpr ⟨_, hprofile, rfl, rfl⟩⟩

/-! ### Rows of the history -/

/-- The packed time of a row. -/
def rowTime (raw : List UInt8) : Nat :=
  unle (slice raw (if raw.length = 8 then 3 else if raw.length = 16 then 4 else 27) 4)

def rowStatus (raw : List UInt8) : UInt8 :=
  raw.getD (if raw.length = 8 then 2 else if raw.length = 16 then 8 else 26) 0

def rowPunch (raw : List UInt8) : UInt8 :=
  raw.getD (if raw.length = 8 then 7 else if raw.length = 16 then 9 else 31) 0

/-- The user id of a row as the firmware reads it. -/
def rowId (raw : List UInt8) : Option (List UInt8) :=
  if raw.length = 8 then some []
  else if raw.length = 16 then some (decimal (le32 raw 0))
  else (textUserId (slice raw 2 24)).filter (· ≠ [])

/-- The user id of a row as ADD reads it. -/
def rowText (raw : List UInt8) : Except DecodeError (Option String) :=
  if raw.length = 8 then .ok none
  else if raw.length = 16 then .ok (some (toString (unle (slice raw 0 4))))
  else (textId (slice raw 2 24)).map some

/-- The number that the firmware takes for the attendance record's own. -/
def rowUid (raw : List UInt8) : Nat :=
  if raw.length = 16 then 0 else (raw.getD 0 0).toNat ||| (raw.getD 1 0).toNat <<< 8

lemma length_of_mem_sourceSizes {n : Nat} (h : n ∈ sourceSizes) :
    n = 8 ∨ n = 16 ∨ n = 40 ∨ n = 49 := by
  simpa [sourceSizes] using h

lemma rowId_eq_some {raw : List UInt8} (h8 : raw.length ≠ 8) (h16 : raw.length ≠ 16)
    {id : List UInt8} : rowId raw = some id ↔ textUserId (slice raw 2 24) = some id ∧ id ≠ [] := by
  simp [rowId, h8, h16, Option.filter_eq_some_iff]

lemma rowText_eq_ok {raw : List UInt8} (h8 : raw.length ≠ 8) (h16 : raw.length ≠ 16)
    {text : Option String} :
    rowText raw = .ok text ↔ ∃ t, textId (slice raw 2 24) = .ok t ∧ text = some t := by
  simp only [rowText, h8, h16, if_false]
  cases textId (slice raw 2 24) with
  | error e => simp [Except.map]
  | ok t => simp [Except.map, eq_comm]

lemma rowText_absent {raw : List UInt8} {text : Option String} (h : rowText raw = .ok text) :
    text = none ↔ raw.length = 8 := by
  by_cases h8 : raw.length = 8
  · obtain rfl : none = text := by simpa [rowText, h8] using h
    simp [h8]
  by_cases h16 : raw.length = 16
  · obtain rfl : some _ = text := by simpa [rowText, h16] using h
    simp [h16]
  obtain ⟨t, -, rfl⟩ := (rowText_eq_ok h8 h16).mp h
  simp [h8]

/-- The two sides find the same user in a row. -/
lemma rowText_iff {raw id : List UInt8} :
    rowId raw = some id ↔ ∃ text, rowText raw = .ok text ∧ id = (text.map ascii).getD [] := by
  by_cases h8 : raw.length = 8
  · simp [rowId, rowText, h8, eq_comm]
  by_cases h16 : raw.length = 16
  · have hid : rowId raw = some (ascii (toString (unle (slice raw 0 4)))) := by
      rw [rowId, if_neg h8, if_pos h16, ascii_toString, le32_eq (by omega)]
    have htext : rowText raw = .ok (some (toString (unle (slice raw 0 4)))) := by
      rw [rowText, if_neg h8, if_pos h16]
    rw [hid, htext, Option.some_inj]
    constructor
    · rintro rfl
      exact ⟨_, rfl, rfl⟩
    · rintro ⟨text, hok, rfl⟩
      obtain rfl := Except.ok.inj hok
      rfl
  rw [rowId_eq_some h8 h16, ← exists_textId]
  simp only [rowText_eq_ok h8 h16]
  constructor
  · rintro ⟨text, htext, rfl⟩
    exact ⟨_, ⟨text, htext, rfl⟩, rfl⟩
  · rintro ⟨_, ⟨text, htext, rfl⟩, rfl⟩
    exact ⟨text, htext, rfl⟩

lemma zktRecordDecode_eq_some {raw : List UInt8} (hsize : raw.length ∈ sourceSizes) {r : ZktRecord} :
    zktRecordDecode raw = some r ↔ ∃ id, rowId raw = some id ∧
      r = ⟨rowUid raw, id, rowTime raw, rowStatus raw, rowPunch raw⟩ := by
  have hlength := length_of_mem_sourceSizes hsize
  rw [zktRecordDecode, if_neg (by omega)]
  by_cases h16 : raw.length = 16
  · have htime := le32_eq (show 4 + 4 ≤ raw.length by omega)
    simp [h16, rowId, rowUid, rowTime, rowStatus, rowPunch, htime, eq_comm]
  by_cases h8 : raw.length = 8
  · have htime := le32_eq (show 3 + 4 ≤ raw.length by omega)
    simp [h8, rowId, rowUid, rowTime, rowStatus, rowPunch, htime, eq_comm]
  have htime := le32_eq (show 27 + 4 ≤ raw.length by omega)
  simp only [h16, h8, if_false, rowId_eq_some h8 h16, rowUid, rowTime, rowStatus, rowPunch, htime]
  rw [show (raw.drop 2).take 24 = slice raw 2 24 from rfl]
  cases textUserId (slice raw 2 24) with
  | none => simp
  | some id =>
    by_cases hne : id = []
    · simp [hne]
    · simp only [if_neg hne, Option.some_inj]
      exact ⟨fun h => ⟨id, ⟨rfl, hne⟩, h.symm⟩, by rintro ⟨_, ⟨rfl, -⟩, rfl⟩; rfl⟩

lemma decodeSource_eq_ok {raw : List UInt8} (hsize : raw.length ∈ sourceSizes) {offset : Nat}
    {facts : PunchFacts} : decodeSource raw raw.length offset = .ok facts ↔
      ∃ text t, rowText raw = .ok text ∧ InProfile t ∧ rowTime raw = packed t ∧ facts =
        ⟨text, if raw.length ≠ 16 then some (unle (slice raw 0 2)) else none, rowTime raw, t, t.toUtc,
          (rowStatus raw).toNat, (rowPunch raw).toNat, offset, raw.length⟩ := by
  have hmem : ¬(raw.length ∉ sourceSizes ∨ raw.length ≠ raw.length) := by simp [hsize]
  rw [decodeSource]
  simp only [bind_eq_ok, refuse_eq_ok, exists_const, hmem, not_false_iff, true_and]
  by_cases h8 : raw.length = 8
  · simp [h8, makeFacts_eq_ok, rowText, rowTime, rowStatus, rowPunch]
  by_cases h16 : raw.length = 16
  · simp [h16, makeFacts_eq_ok, rowText, rowTime, rowStatus, rowPunch]
  simp only [h8, h16, if_false, bind_eq_ok, makeFacts_eq_ok, rowText_eq_ok h8 h16, rowTime, rowStatus,
    rowPunch, ne_eq, not_false_iff, if_true]
  constructor
  · rintro ⟨text, htext, t, hprofile, htime, rfl⟩
    exact ⟨some text, t, ⟨text, htext, rfl⟩, hprofile, htime, rfl⟩
  · rintro ⟨_, t, ⟨text, htext, rfl⟩, hprofile, htime, rfl⟩
    exact ⟨text, htext, t, hprofile, htime, rfl⟩

/-! ### The packed time of an instant -/

/-- The seconds from the start of 1970 to a date and time read as UTC. -/
def utcSeconds (t : DateTime) : Int :=
  (t.days : Int) * 86400 + t.hour * 3600 + t.minute * 60 + t.second - 719162 * 86400

/-- The fields of a date and time in `struct tm`. -/
def tmOf (t : DateTime) : Tm :=
  ⟨(t.year - 1900 : Nat), (t.month - 1 : Nat), t.day, t.hour, t.minute, t.second⟩

/-- The C library knows the calendar of the dates in the profile. -/
structure Conforms (libc : CTime) : Prop where
  gmtimeR : ∀ t, InProfile t → libc.gmtimeR (utcSeconds t) = some (tmOf t)
  mktime : ∀ t, InProfile t → libc.mktime (tmOf t) = (utcSeconds t, tmOf t)

lemma InProfile.utcSeconds_bounds {t : DateTime} (h : InProfile t) :
    0 < utcSeconds t ∧ utcSeconds t < 2 ^ 33 := by
  have hlow : DateTime.yearDays 2000 ≤ DateTime.yearDays t.year :=
    DateTime.yearDays_le (by omega) h.year_ge
  have hhigh : DateTime.yearDays t.year ≤ DateTime.yearDays 2099 :=
    DateTime.yearDays_le (by have := h.year_ge; omega) h.year_le
  have hmonth := DateTime.monthDays_mono t.year (show t.month - 1 ≤ 12 by have := h.month_le; omega)
  have hyear : DateTime.monthDays t.year 12 ≤ 366 := by
    rw [DateTime.monthDays_year]
    split_ifs <;> omega
  have hday := h.day_le.trans (DateTime.daysInMonth_le _ _)
  have h2000 : DateTime.yearDays 2000 = 730119 := rfl
  have h2099 : DateTime.yearDays 2099 = 766279 := rfl
  have hh := h.hour_le
  have hm := h.minute_le
  have hs := h.second_le
  rw [utcSeconds, DateTime.days_eq]
  omega

/-- Two times of the profile are not the same instant. -/
lemma InProfile.eq_of_utcSeconds {s t : DateTime} (hs : InProfile s) (ht : InProfile t)
    (h : utcSeconds s = utcSeconds t) : s = t := by
  have hinstant : s.instant 0 = t.instant 0 := by
    simp only [utcSeconds] at h
    simp only [DateTime.instant, hs.whole, ht.whole]
    omega
  have hlt := packed_lt_iff hs ht 0
  have hgt := packed_lt_iff ht hs 0
  exact hs.eq_of_packed ht (by omega)

/-- A C library with the calendar of the profile. -/
lemma exists_conforms : ∃ libc, Conforms libc := by
  classical
  refine ⟨⟨fun n => if h : ∃ t, InProfile t ∧ utcSeconds t = n then some (tmOf h.choose) else none,
    fun tm => if h : ∃ t, InProfile t ∧ tmOf t = tm then (utcSeconds h.choose, tm) else (-1, tm)⟩,
    fun t ht => ?_, fun t ht => ?_⟩
  · have hex : ∃ u, InProfile u ∧ utcSeconds u = utcSeconds t := ⟨t, ht, rfl⟩
    simp only [dif_pos hex]
    rw [hex.choose_spec.1.eq_of_utcSeconds ht hex.choose_spec.2]
  · have hex : ∃ u, InProfile u ∧ tmOf u = tmOf t := ⟨t, ht, rfl⟩
    simp only [dif_pos hex, Prod.mk.injEq, and_true]
    have hsame : hex.choose = t := by
      have hfields := hex.choose_spec.2
      have hu := hex.choose_spec.1
      generalize hex.choose = u at hfields hu ⊢
      obtain ⟨hsy, -, hsm, -, hsd, -, -, -, -, hsw, hsp⟩ := hu
      obtain ⟨hty, -, htm, -, htd, -, -, -, -, htw, htp⟩ := ht
      obtain ⟨uy, um, ud, uh, umi, us, uw, up⟩ := u
      obtain ⟨ty, tm, td, th, tmi, ts, tw, tp⟩ := t
      simp only [tmOf, Tm.mk.injEq, Nat.cast_inj] at *
      subst hsw htw hsp htp
      simp only [DateTime.mk.injEq, and_true]
      omega
    rw [hsame]

lemma toUnsigned_natCast {n : Nat} (h : n < 2 ^ 32) : toUnsigned n = n := by
  simp only [toUnsigned]
  omega

lemma validLocalTime_tmOf {libc : CTime} (hlibc : Conforms libc) {t : DateTime} (h : InProfile t) :
    validLocalTime libc (tmOf t) = true := by
  have hday := h.day_le.trans (DateTime.daysInMonth_le _ _)
  have hge := h.year_ge
  have hle := h.year_le
  have hpos := h.month_pos
  have hvalid : zktClockFieldsValid t.year t.month t.day t.hour t.minute t.second = true := by
    rw [zktClockFieldsValid_iff, ← h.whole, ← h.pakistan]
    exact h
  have hfields : zktClockFieldsValid ((toUnsigned (tmOf t).year + 1900) % 2 ^ 32)
      ((toUnsigned (tmOf t).mon + 1) % 2 ^ 32) (toUnsigned (tmOf t).mday) (toUnsigned (tmOf t).hour)
      (toUnsigned (tmOf t).min) (toUnsigned (tmOf t).sec) = true := by
    obtain ⟨-, -, -, hmonth, -, -, hhour, hminute, hsecond, -, -⟩ := h
    simp only [tmOf]
    rw [toUnsigned_natCast (by omega), toUnsigned_natCast (by omega), toUnsigned_natCast (by omega),
      toUnsigned_natCast (by omega), toUnsigned_natCast (by omega), toUnsigned_natCast (by omega),
      show (t.year - 1900 + 1900) % 2 ^ 32 = t.year by omega,
      show (t.month - 1 + 1) % 2 ^ 32 = t.month by omega, hvalid]
  have hskip : ¬((tmOf t).year < 100 ∨ 199 < (tmOf t).year ∨
      (!zktClockFieldsValid ((toUnsigned (tmOf t).year + 1900) % 2 ^ 32)
        ((toUnsigned (tmOf t).mon + 1) % 2 ^ 32) (toUnsigned (tmOf t).mday)
        (toUnsigned (tmOf t).hour) (toUnsigned (tmOf t).min) (toUnsigned (tmOf t).sec)) = true) := by
    rw [hfields]
    simp only [tmOf, Bool.not_true, Bool.false_eq_true, or_false]
    omega
  have hseconds := h.utcSeconds_bounds
  rw [validLocalTime, if_neg hskip, hlibc.mktime t h]
  simp only [and_true, decide_eq_true_eq]
  omega

/-- The firmware packs the time of an instant in Pakistan as ADD packs that time. -/
lemma zktClockPackPst_eq {libc : CTime} (hlibc : Conforms libc) {t : DateTime} (h : InProfile t)
    {utcEpoch : Int} (hwall : utcSeconds t = utcEpoch + pakistanUtcOffsetSeconds) :
    zktClockPackPst libc utcEpoch = some (packed t) := by
  have hbounds := h.utcSeconds_bounds
  have hday := h.day_le.trans (DateTime.daysInMonth_le _ _)
  have hpacked : packed t % 2 ^ 32 = packed t := by
    have := h.packed_le
    omega
  have htime : (utcSeconds t).bmod (2 ^ 64) = utcSeconds t := by
    rw [Int.bmod_eq_of_le (by omega) (by omega)]
  have hge := h.year_ge
  have hle := h.year_le
  have hfields : [(12, toUnsigned (tmOf t).mon), (31, toUnsigned ((tmOf t).mday - 1)),
      (24, toUnsigned (tmOf t).hour), (60, toUnsigned (tmOf t).min), (60, toUnsigned (tmOf t).sec)] =
        digits t := by
    obtain ⟨-, -, -, hmonth, hpos, -, hhour, hminute, hsecond, -, -⟩ := h
    simp only [tmOf, digits]
    rw [toUnsigned_natCast (by omega), show ((t.day : Int) - 1) = (t.day - 1 : Nat) by omega,
      toUnsigned_natCast (by omega), toUnsigned_natCast (by omega), toUnsigned_natCast (by omega),
      toUnsigned_natCast (by omega)]
  have hyear : toUnsigned ((tmOf t).year - 100) = (t.year - 2000) % 2 ^ 32 := by
    simp only [tmOf]
    rw [show (((t.year - 1900 : Nat) : Int) - 100) = (t.year - 2000 : Nat) by omega,
      toUnsigned_natCast (by omega)]
    omega
  rw [zktClockPackPst, ← hwall, if_neg (by simpa using htime), hlibc.gmtimeR t h]
  simp only [validLocalTime_tmOf hlibc h, Bool.not_true, Bool.false_eq_true, if_false, hfields, hyear]
  rw [MixedRadix.foldl_mod]
  exact congrArg some hpacked

/-! ### Agreement -/

/-- The facts of a live record are what the firmware has read. -/
structure SameLive (facts : PunchFacts) (record : RelLiveRecord) : Prop where
  user : facts.userId.map ascii = some record.userId
  time : facts.encodedTime = record.timestamp
  status : facts.status = record.status.toNat
  punch : facts.punch = record.punch.toNat

/-- The facts of a row are what the firmware has read. -/
structure SameRow (raw : List UInt8) (facts : PunchFacts) (record : ZktRecord) : Prop where
  absent : facts.userId = none ↔ raw.length = 8
  user : (facts.userId.map ascii).getD [] = record.userId
  time : facts.encodedTime = record.encodedTime
  status : facts.status = record.status.toNat
  punch : facts.punch = record.punch.toNat

lemma live_accepted {raw : List UInt8} (hsize : raw.length ∈ liveSizes) (offset : Nat) :
    (∃ record, relParseLiveRecord raw = some record) ↔
      ∃ facts, decodeLiveRecord raw raw.length offset = .ok facts := by
  simp only [relParseLiveRecord_eq_some hsize, decodeLiveRecord_eq_ok hsize, ← exists_liveText]
  constructor
  · rintro ⟨_, _, ⟨text, htext, rfl⟩, hprofile, rfl⟩
    exact ⟨_, text, htext, hprofile, rfl⟩
  · rintro ⟨_, text, htext, hprofile, rfl⟩
    exact ⟨_, _, ⟨text, htext, rfl⟩, hprofile, rfl⟩

lemma live_same {raw : List UInt8} (hsize : raw.length ∈ liveSizes) {offset : Nat}
    {record : RelLiveRecord} {facts : PunchFacts} (hrecord : relParseLiveRecord raw = some record)
    (hfacts : decodeLiveRecord raw raw.length offset = .ok facts) : SameLive facts record := by
  obtain ⟨id, hid, hprofile, rfl⟩ := (relParseLiveRecord_eq_some hsize).mp hrecord
  obtain ⟨text, htext, -, rfl⟩ := (decodeLiveRecord_eq_ok hsize).mp hfacts
  obtain ⟨text', htext', rfl⟩ := exists_liveText.mpr hid
  rw [htext, Except.ok.injEq] at htext'
  subst htext'
  exact ⟨rfl, rfl, rfl, rfl⟩

lemma row_accepted {raw : List UInt8} (hsize : raw.length ∈ sourceSizes) (offset : Nat) :
    (∃ facts, decodeSource raw raw.length offset = .ok facts) ↔
      ∃ record t, zktRecordDecode raw = some record ∧ InProfile t ∧
        encodeTime t = some record.encodedTime := by
  simp only [zktRecordDecode_eq_some hsize, decodeSource_eq_ok hsize, rowText_iff]
  constructor
  · rintro ⟨_, text, t, htext, hprofile, htime, rfl⟩
    exact ⟨_, t, ⟨_, ⟨text, htext, rfl⟩, rfl⟩, hprofile, htime ▸ hprofile.encodeTime⟩
  · rintro ⟨_, t, ⟨_, ⟨text, htext, rfl⟩, rfl⟩, hprofile, htime⟩
    rw [hprofile.encodeTime, Option.some_inj] at htime
    exact ⟨_, text, t, htext, hprofile, htime.symm, rfl⟩

lemma row_same {raw : List UInt8} (hsize : raw.length ∈ sourceSizes) {offset : Nat}
    {record : ZktRecord} {facts : PunchFacts} (hrecord : zktRecordDecode raw = some record)
    (hfacts : decodeSource raw raw.length offset = .ok facts) : SameRow raw facts record := by
  obtain ⟨id, hid, rfl⟩ := (zktRecordDecode_eq_some hsize).mp hrecord
  obtain ⟨text, t, htext, -, -, rfl⟩ := (decodeSource_eq_ok hsize).mp hfacts
  obtain ⟨text', htext', rfl⟩ := rowText_iff.mp hid
  rw [htext, Except.ok.injEq] at htext'
  subst htext'
  exact ⟨rowText_absent htext, rfl, rfl, rfl, rfl⟩

theorem firmware_and_add_decode_alike :
    (∀ raw offset, raw.length ∈ liveSizes →
      ((∃ record, relParseLiveRecord raw = some record) ↔
        ∃ facts, decodeLiveRecord raw raw.length offset = .ok facts) ∧
      ∀ record facts, relParseLiveRecord raw = some record →
        decodeLiveRecord raw raw.length offset = .ok facts → SameLive facts record) ∧
    (∀ raw offset, raw.length ∈ sourceSizes →
      ((∃ facts, decodeSource raw raw.length offset = .ok facts) ↔
        ∃ record t, zktRecordDecode raw = some record ∧ InProfile t ∧
          encodeTime t = some record.encodedTime) ∧
      ∀ record facts, zktRecordDecode raw = some record →
        decodeSource raw raw.length offset = .ok facts → SameRow raw facts record) ∧
    (∀ s t m n, InProfile s → InProfile t → encodeTime s = some m → encodeTime t = some n →
      (m < n ↔ s.instant (5 * 3600) < t.instant (5 * 3600))) ∧
    Set.BijOn (fun t => (encodeTime t).getD 0) {t | InProfile t} {n | ∃ r, decodeTime n = .ok r} ∧
    (∀ t n, InProfile t → encodeTime t = some n → decodeTime n = .ok (t, t.toUtc)) ∧
    (∀ n r, decodeTime n = .ok r → encodeTime r.1 = some n) ∧
    ∀ libc, Conforms libc → ∀ t utcEpoch, InProfile t →
      utcSeconds t = utcEpoch + pakistanUtcOffsetSeconds →
        ∃ n, zktClockPackPst libc utcEpoch = some n ∧ encodeTime t = some n := by
  refine ⟨fun raw offset hsize => ⟨live_accepted hsize offset, fun _ _ => live_same hsize⟩,
    fun raw offset hsize => ⟨row_accepted hsize offset, fun _ _ => row_same hsize⟩, ?_, ?_, ?_, ?_, ?_⟩
  · intro s t m n hs ht hm hn
    rw [hs.encodeTime, Option.some_inj] at hm
    rw [ht.encodeTime, Option.some_inj] at hn
    rw [← hm, ← hn]
    exact packed_lt_iff hs ht _
  · refine ⟨fun t ht => ?_, fun s hs t ht heq => ?_, fun n hn => ?_⟩
    · simp only [InProfile.encodeTime ht, Option.getD_some]
      exact ⟨(t, t.toUtc), decodeTime_eq_ok.mpr ⟨ht, rfl, rfl⟩⟩
    · simp only [InProfile.encodeTime hs, InProfile.encodeTime ht, Option.getD_some] at heq
      exact InProfile.eq_of_packed hs ht heq
    · obtain ⟨r, hr⟩ := hn
      obtain ⟨hprofile, rfl, -⟩ := decodeTime_eq_ok.mp hr
      exact ⟨r.1, hprofile, by simp [hprofile.encodeTime]⟩
  · intro t n ht hn
    rw [ht.encodeTime, Option.some_inj] at hn
    exact decodeTime_eq_ok.mpr ⟨ht, hn.symm, rfl⟩
  · intro n r hr
    obtain ⟨hprofile, rfl, -⟩ := decodeTime_eq_ok.mp hr
    exact hprofile.encodeTime
  · intro libc hlibc t utcEpoch ht hwall
    exact ⟨packed t, zktClockPackPst_eq hlibc ht hwall, ht.encodeTime⟩

/-- The start of 2000 in Pakistan. -/
theorem firmware_and_add_decode_alike_2000 :
    ∃ libc, Conforms libc ∧ zktClockPackPst libc 946666800 = some 0 := by
  obtain ⟨libc, hlibc⟩ := exists_conforms
  have hprofile : InProfile ⟨2000, 1, 1, 0, 0, 0, 0, pakistanTime⟩ := by constructor <;> decide
  obtain ⟨n, hn, hencode⟩ := firmware_and_add_decode_alike.2.2.2.2.2.2 libc hlibc _ 946666800 hprofile
    (by decide)
  rw [hprofile.encodeTime] at hencode
  exact ⟨libc, hlibc, hn.trans (hencode.symm.trans rfl)⟩

end Zkt
