import Mathlib
import AutoAttn.Bytes
import AutoAttn.Checks

/-!
# Facts of preserved bytes

ADD decodes the rows of a terminal's history and the records of its live packets again from the bytes
that it keeps (`zkt_decode.py`).
-/

namespace Zkt

open Checks Bytes

/-! ### Times -/

/-- `datetime`, with the offset from UTC in seconds. -/
structure DateTime where
  year : Nat
  month : Nat
  day : Nat
  hour : Nat
  minute : Nat
  second : Nat
  microsecond : Nat
  utcoffset : Option Int
deriving DecidableEq

namespace DateTime

def isLeap (year : Nat) : Bool := year % 4 = 0 && (year % 100 ≠ 0 || year % 400 = 0)

def daysInMonth (year month : Nat) : Nat :=
  if month = 2 then if isLeap year then 29 else 28
  else if month ∈ [4, 6, 9, 11] then 30
  else 31

/-- The days before the date. -/
def days (t : DateTime) : Nat :=
  let past := t.year - 1
  past * 365 + past / 4 - past / 100 + past / 400 +
    ((List.range (t.month - 1)).map fun m => daysInMonth t.year (m + 1)).sum + (t.day - 1)

/-- The microseconds before a time with an offset, in UTC. -/
def instant (t : DateTime) (offset : Int) : Int :=
  (t.days * 86400 + t.hour * 3600 + t.minute * 60 + t.second - offset) * 1000000 + t.microsecond

/-- `==` of times. -/
def sameInstant (s t : DateTime) : Bool :=
  match s.utcoffset, t.utcoffset with
  | some a, some b => s.instant a = t.instant b
  | _, _           => s = t

/-- The constructor, which refuses fields that are out of their range. -/
def make? (year month day hour minute second : Nat) (utcoffset : Option Int) : Option DateTime :=
  if 1 ≤ year ∧ year ≤ 9999 ∧ 1 ≤ month ∧ month ≤ 12 ∧ 1 ≤ day ∧ day ≤ daysInMonth year month ∧
      hour ≤ 23 ∧ minute ≤ 59 ∧ second ≤ 59 then
    some ⟨year, month, day, hour, minute, second, 0, utcoffset⟩
  else none

/-- The same time of the day before. -/
def dayBefore (t : DateTime) : DateTime :=
  if 1 < t.day then { t with day := t.day - 1 }
  else if 1 < t.month then
    { t with month := t.month - 1, day := daysInMonth t.year (t.month - 1) }
  else { t with year := t.year - 1, month := 12, day := 31 }

/-- `astimezone(timezone.utc)` of a time in Pakistan. -/
def toUtc (t : DateTime) : DateTime :=
  if 5 ≤ t.hour then { t with hour := t.hour - 5, utcoffset := some 0 }
  else { t.dayBefore with hour := t.hour + 19, utcoffset := some 0 }

end DateTime

/-- The offset of `PAKISTAN_TIME`. -/
def pakistanTime : Option Int := some (5 * 3600)

/-- `encode_time` -/
def encodeTime (t : DateTime) : Option Nat :=
  if t.utcoffset ≠ some (5 * 3600) then none
  else if ¬ (2000 ≤ t.year ∧ t.year ≤ 2099) ∨ t.microsecond ≠ 0 then none
  else
    some ([(12, t.month - 1), (31, t.day - 1), (24, t.hour), (60, t.minute), (60, t.second)].foldl
      (fun value p => value * p.1 + p.2) (t.year - 2000))

/-! ### Facts -/

/-- `PunchFacts` -/
structure PunchFacts where
  userId : Option String
  attendanceUid : Option Nat
  encodedTime : Nat
  localTime : DateTime
  utcTime : DateTime
  status : Nat
  punch : Nat
  offset : Nat
  length : Nat

def sourceSizes : Finset Nat := {8, 16, 40, 49}

def liveSizes : Finset Nat := {12, 32, 36, 52}

/-- The values of `MODEL_PROFILES`. -/
def modelProfiles : List String :=
  ["zkt-g3-v1", "zkt-silkbio-101tc-id-v1", "zkt-mb40-vl-id-v1", "zkt-uface800-v1", "zkt-uface800-id-v1",
    "zkt-uface800-plus-id-v1"]

def decoderVersion : String := "zkt-facts-1"

/-! ### Decoding -/

/-- `DecodeError`, by its category. -/
inductive DecodeError where
  | terminalLocalTimeRequired
  | timeOutsideProfile
  | encodedTimeRange
  | invalidCalendarDate
  | invalidUserReference
  | sourceRecordBoundary
  | liveRecordBoundary
deriving DecidableEq

def DecodeError.message : DecodeError → String
  | .terminalLocalTimeRequired => "TERMINAL_LOCAL_TIME_REQUIRED"
  | .timeOutsideProfile        => "TIME_OUTSIDE_PROFILE"
  | .encodedTimeRange          => "ENCODED_TIME_RANGE"
  | .invalidCalendarDate       => "INVALID_CALENDAR_DATE"
  | .invalidUserReference      => "INVALID_USER_REFERENCE"
  | .sourceRecordBoundary      => "SOURCE_RECORD_BOUNDARY"
  | .liveRecordBoundary        => "LIVE_RECORD_BOUNDARY"

/-- What `encode_time` raises when it does not return. -/
def encodeError (t : DateTime) : DecodeError :=
  if t.utcoffset ≠ pakistanTime then .terminalLocalTimeRequired else .timeOutsideProfile

/-- `decode_time` -/
def decodeTime (encoded : Nat) : Except DecodeError (DateTime × DateTime) := do
  refuse (0xFFFFFFFF < encoded) .encodedTimeRange
  let (encoded₁, second) := (encoded / 60, encoded % 60)
  let (encoded₂, minute) := (encoded₁ / 60, encoded₁ % 60)
  let (encoded₃, hour) := (encoded₂ / 24, encoded₂ % 24)
  let (encoded₄, day) := (encoded₃ / 31, encoded₃ % 31)
  let (value, month) := (encoded₄ / 12, encoded₄ % 12)
  let time ← require
    (DateTime.make? (2000 + value) (month + 1) (day + 1) hour minute second pakistanTime)
    .invalidCalendarDate
  let again ← require (encodeTime time) (encodeError time)
  refuse (again ≠ encoded) .timeOutsideProfile
  return (time, time.toUtc)

/-- `_text_id` -/
def textId (raw : List UInt8) : Except DecodeError String := do
  let value := (raw.takeWhile (· != 0)).rdropWhile (· == 0x20)
  refuse (value = [] ∨ value.any fun byte => byte < 32 || 126 < byte) .invalidUserReference
  return String.ofList (value.map fun byte => Char.ofNat byte.toNat)

/-- `_facts` -/
def makeFacts (userId : Option String) (attendanceUid : Option Nat) (encoded : Nat)
    (status punch : UInt8) (offset length : Nat) : Except DecodeError PunchFacts := do
  let (time, utc) ← decodeTime encoded
  return ⟨userId, attendanceUid, encoded, time, utc, status.toNat, punch.toNat, offset, length⟩

/-- `decode_source` -/
def decodeSource (raw : List UInt8) (recordSize offset : Nat) : Except DecodeError PunchFacts := do
  refuse (recordSize ∉ sourceSizes ∨ raw.length ≠ recordSize) .sourceRecordBoundary
  let attendanceUid := if recordSize ≠ 16 then some (unle (slice raw 0 2)) else none
  if recordSize = 8 then
    makeFacts none attendanceUid (unle (slice raw 3 4)) (raw.getD 2 0) (raw.getD 7 0) offset 8
  else if recordSize = 16 then
    makeFacts (some (toString (unle (slice raw 0 4)))) none (unle (slice raw 4 4)) (raw.getD 8 0)
      (raw.getD 9 0) offset 16
  else
    let userId ← textId (slice raw 2 24)
    makeFacts (some userId) attendanceUid (unle (slice raw 27 4)) (raw.getD 26 0) (raw.getD 31 0)
      offset recordSize

/-- `decode_live_record` -/
def decodeLiveRecord (raw : List UInt8) (recordSize offset : Nat) :
    Except DecodeError PunchFacts := do
  refuse (recordSize ∉ liveSizes ∨ raw.length ≠ recordSize) .liveRecordBoundary
  let base := if recordSize = 12 then 4 else 24
  let userId ← (if base = 4 then pure (toString (unle (slice raw 0 4)))
    else textId (slice raw 0 24) : Except DecodeError String)
  let field := fun i => (raw.getD (base + 2 + i) 0).toNat
  let time ← require
    (DateTime.make? (2000 + field 0) (field 1) (field 2) (field 3) (field 4) (field 5) pakistanTime)
    .invalidCalendarDate
  let encoded ← require (encodeTime time) (encodeError time)
  makeFacts (some userId) none encoded (raw.getD base 0) (raw.getD (base + 1) 0) offset recordSize

end Zkt
