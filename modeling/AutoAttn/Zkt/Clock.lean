import Mathlib
import AutoAttn.Text

/-!
# Records and packed times in the firmware

The connector reads the rows of the terminal's history (`zkt_record.c`) and its live records
(`reliability.c`), and it packs its own time as the terminal does (`zkt_clock.c`).
-/

namespace ZoneLite

/-! ### Dates -/

/-- `zkt_clock_fields_valid` -/
def zktClockFieldsValid (year month day hour minute second : Nat) : Bool :=
  let days := [31, 28, 31, 30, 31, 30, 31, 31, 30, 31, 30, 31]
  if year < 2000 ∨ 2099 < year ∨ month < 1 ∨ 12 < month ∨ 23 < hour ∨ 59 < minute ∨ 59 < second then
    false
  else
    let maximum := days.getD (month - 1) 0
    let maximum := if month = 2 ∧ year % 4 = 0 ∧ (year % 100 ≠ 0 ∨ year % 400 = 0) then maximum + 1
      else maximum
    decide (1 ≤ day ∧ day ≤ maximum)

/-- The fields of `struct tm` that are read. -/
structure Tm where
  year : Int
  mon : Int
  mday : Int
  hour : Int
  min : Int
  sec : Int
deriving DecidableEq

/-- `gmtime_r` and `mktime` of the C library, in the time zone UTC0. -/
structure CTime where
  gmtimeR : Int → Option Tm
  /-- The time, `-1` for none, and the fields as `mktime` leaves them. -/
  mktime : Tm → Int × Tm

/-- The conversion of an `int` to `unsigned`. -/
def toUnsigned (n : Int) : Nat := (n % 2 ^ 32).toNat

def validLocalTime (libc : CTime) (tm : Tm) : Bool :=
  if tm.year < 100 ∨ 199 < tm.year ∨
      !zktClockFieldsValid ((toUnsigned tm.year + 1900) % 2 ^ 32) ((toUnsigned tm.mon + 1) % 2 ^ 32)
        (toUnsigned tm.mday) (toUnsigned tm.hour) (toUnsigned tm.min) (toUnsigned tm.sec) then
    false
  else
    let (roundtrip, copy) := libc.mktime tm
    decide (roundtrip ≠ -1 ∧ copy = tm)

/-- `PAKISTAN_UTC_OFFSET_SECONDS` -/
def pakistanUtcOffsetSeconds : Int := 5 * 60 * 60

def zktClockPackPst (libc : CTime) (utcEpoch : Int) : Option Nat :=
  let shifted := utcEpoch + pakistanUtcOffsetSeconds
  -- `time_t` has 64 bits
  if shifted.bmod (2 ^ 64) ≠ shifted then none
  else
    match libc.gmtimeR shifted with
    | none    => none
    | some tm =>
      if !validLocalTime libc tm then none
      else
        some ([(12, toUnsigned tm.mon), (31, toUnsigned (tm.mday - 1)), (24, toUnsigned tm.hour),
          (60, toUnsigned tm.min), (60, toUnsigned tm.sec)].foldl
            (fun value p => (value * p.1 + p.2) % 2 ^ 32) (toUnsigned (tm.year - 100)))

/-! ### Records -/

def le32 (data : List UInt8) (off : Nat) : Nat :=
  (data.getD off 0).toNat ||| (data.getD (off + 1) 0).toNat <<< 8 |||
    (data.getD (off + 2) 0).toNat <<< 16 ||| (data.getD (off + 3) 0).toNat <<< 24

/-- The characters of a field up to a NUL. -/
def idChars : List UInt8 → Option (List UInt8)
  | []          => some []
  | byte :: rest =>
    if byte = 0 then some []
    else if byte < 32 ∨ 126 < byte then none
    else (idChars rest).map (byte :: ·)

/-- A user id of 24 characters at most, without the blanks behind it. -/
def textUserId (field : List UInt8) : Option (List UInt8) :=
  (idChars field).map (·.rdropWhile (· == 0x20))

/-- `rel_live_record_t` -/
structure RelLiveRecord where
  userId : List UInt8
  status : UInt8
  punch : UInt8
  timestamp : Nat
deriving DecidableEq

def relParseLiveRecord (data : List UInt8) : Option RelLiveRecord :=
  if data.length ≠ 12 ∧ data.length ≠ 32 ∧ data.length ≠ 36 ∧ data.length ≠ 52 then none
  else
    match if data.length = 12 then some (decimal (le32 data 0), 4)
      else (textUserId (data.take 24)).map (·, 24) with
    | none                => none
    | some (userId, base) =>
      let t := fun i => (data.getD (base + 2 + i) 0).toNat
      if !zktClockFieldsValid (2000 + t 0) (t 1) (t 2) (t 3) (t 4) (t 5) then none
      else
        let timestamp :=
          ((((t 0 * 12 + t 1 - 1) * 31 + t 2 - 1) * 24 + t 3) * 60 + t 4) * 60 + t 5
        if 0xFFFFFFFF < timestamp then none
        else if userId = [] then none
        else some ⟨userId, data.getD base 0, data.getD (base + 1) 0, timestamp⟩

/-- `zkt_record_t` -/
structure ZktRecord where
  attendanceUid : Nat
  userId : List UInt8
  encodedTime : Nat
  status : UInt8
  punch : UInt8
deriving DecidableEq

def zktRecordDecode (raw : List UInt8) : Option ZktRecord :=
  if raw.length ≠ 8 ∧ raw.length ≠ 16 ∧ raw.length ≠ 40 ∧ raw.length ≠ 49 then none
  else if raw.length = 16 then
    some ⟨0, decimal (le32 raw 0), le32 raw 4, raw.getD 8 0, raw.getD 9 0⟩
  else
    let attendanceUid := (raw.getD 0 0).toNat ||| (raw.getD 1 0).toNat <<< 8
    if raw.length = 8 then some ⟨attendanceUid, [], le32 raw 3, raw.getD 2 0, raw.getD 7 0⟩
    else
      match textUserId ((raw.drop 2).take 24) with
      | none        => none
      | some userId =>
        if userId = [] then none
        else some ⟨attendanceUid, userId, le32 raw 27, raw.getD 26 0, raw.getD 31 0⟩

end ZoneLite
