import AutoAttn.Bytes
import AutoAttn.Text

/-!
# The multipart stream of a terminal

A terminal sends its events in the parts of one unbounded multipart body (`hikvision_stream.c`). The
decoder reads it byte by byte and hands the body of each part that it captures to a callback.
-/

namespace ZoneLite

open Bytes

/-- `HIK_BOUNDARY_MAX` -/
def hikBoundaryMax : Nat := 200

/-- `HIK_HEADERS_MAX` -/
def hikHeadersMax : Nat := 2048

/-- `HIK_MESSAGE_MAX` -/
def hikMessageMax : Nat := 8192

def crlf : List UInt8 := [13, 10]

def dashes : List UInt8 := [45, 45]

inductive HikState where
  | boundary
  | headers
  | body
  | done
  | failed
deriving DecidableEq

/-- `hik_stream_t`. The callback's calls are kept in `delivered`. -/
structure HikStream where
  marker : List UInt8
  state : HikState
  pending : List UInt8
  body : List UInt8
  capture : Bool
  messages : Nat
  discarded : Nat
  oversized : Nat
  delivered : List (List UInt8)
deriving DecidableEq

namespace HikStream

def consume (s : HikStream) (n : Nat) : HikStream := { s with pending := s.pending.drop n }

def append (s : HikStream) (p : List UInt8) : HikStream :=
  if !s.capture then s
  else if hikMessageMax - s.body.length < p.length then
    { s with capture := false, body := [], oversized := s.oversized + 1 }
  else { s with body := s.body ++ p }

end HikStream

def hikStreamInit (boundary : List UInt8) : Option HikStream :=
  if boundary = [] ∨ hikBoundaryMax < boundary.length then none
  else if boundary.any fun b => b < 32 || 126 < b then none
  else some ⟨crlf ++ dashes ++ boundary, .boundary, [], [], false, 0, 0, 0, []⟩

/-! ### The headers of a part -/

/-- `tolower` in the C locale. -/
def lower (b : UInt8) : UInt8 := if 65 ≤ b ∧ b ≤ 90 then b + 32 else b

/-- `!strncasecmp(s, word, strlen(word))` -/
def startsNoCase (s word : List UInt8) : Bool := (s.take word.length).map lower = word.map lower

/-- The lines of a text, cut at each CRLF, when `acc` was read before. What follows the last CRLF is no
line. -/
def crlfLines : List UInt8 → List UInt8 → List (List UInt8)
  | acc, 13 :: 10 :: rest => acc :: crlfLines [] rest
  | acc, b :: rest        => crlfLines (acc ++ [b]) rest
  | _, []                 => []

def contentType : List UInt8 := ascii "Content-Type:"

/-- `types` -/
def captureTypes : List (List UInt8) :=
  [ascii "application/json", ascii "application/xml", ascii "text/xml"]

def eventLogLine : List UInt8 := ascii "Content-Disposition: form-data; name=\"event_log\""

/-- The value of a Content-Type line is one of the types that are captured. -/
def capturesType (line : List UInt8) : Bool :=
  let v := (line.drop contentType.length).dropWhile fun b => b = 32 || b = 9
  captureTypes.any fun type =>
    startsNoCase v type && (v.drop type.length).head?.all fun b => b = 59 || b = 32

/-- What the lines read so far say of a part. -/
structure PartKind where
  capture : Bool
  hasType : Bool
  eventLog : Bool

def PartKind.line (kind : PartKind) (line : List UInt8) : PartKind :=
  let kind :=
    if startsNoCase line contentType then
      { kind with hasType := true, capture := kind.capture || capturesType line }
    else kind
  if line.map lower = eventLogLine.map lower then { kind with eventLog := true } else kind

/-- Whether the part with these headers is captured. A NUL ends the text. -/
def headersCapture (pending : List UInt8) : Bool :=
  let kind := (crlfLines [] (pending.takeWhile (· != 0))).foldl PartKind.line ⟨false, false, false⟩
  kind.capture || (!kind.hasType && kind.eventLog)

/-! ### Decoding -/

section
variable (message : List UInt8 → Bool)

/-- The loop of `drain`. Every turn that is not the last makes `pending` shorter. -/
def drainLoop : Nat → HikStream → Option (Bool × HikStream)
  | 0, _        => none
  | turns + 1, s =>
    match s.state with
    | .boundary =>
      let n := s.marker.length - 2
      if s.pending.length < n + 2 then some (true, s)
      else if s.pending.take n ≠ s.marker.drop 2 then drainLoop turns (s.consume 1)
      else if slice s.pending n 2 = dashes then some (true, { s with state := .done })
      else if slice s.pending n 2 ≠ crlf then some (false, s)
      else drainLoop turns { s.consume (n + 2) with state := .headers }
    | .headers =>
      if hikHeadersMax < s.pending.length then some (false, s)
      else if s.pending.length < 4 ∨ s.pending.drop (s.pending.length - 4) ≠ crlf ++ crlf then
        some (true, s)
      else
        let capture := headersCapture s.pending
        drainLoop turns
          { s with
            capture := capture
            discarded := if capture then s.discarded else s.discarded + 1
            pending := []
            body := []
            state := .body }
    | .body =>
      let n := s.marker.length
      if s.pending.length < n + 2 then some (true, s)
      else if s.pending.take n = s.marker ∧
          (slice s.pending n 2 = crlf ∨ slice s.pending n 2 = dashes) then
        if s.capture then
          let s := { s with delivered := s.delivered ++ [s.body] }
          if !message s.body then some (false, s)
          else drainLoop turns { s.consume 2 with messages := s.messages + 1, state := .boundary }
        else drainLoop turns { s.consume 2 with state := .boundary }
      else drainLoop turns ((s.append (s.pending.take 1)).consume 1)
    | .done   => some (true, s)
    | .failed => some (false, s)

def drain (s : HikStream) : Bool × HikStream :=
  (drainLoop message (s.pending.length + 1) s).getD (false, s)

/-- The loop of `hik_stream_feed`. -/
def feedLoop : HikStream → List UInt8 → Bool × HikStream
  | s, []        => (true, s)
  | s, b :: rest =>
    if s.state = .done then (true, s)
    else if hikHeadersMax + hikBoundaryMax + 8 - 1 ≤ s.pending.length then
      (false, { s with state := .failed })
    else
      match drain message { s with pending := s.pending ++ [b] } with
      | (false, s) => (false, { s with state := .failed })
      | (true, s)  => feedLoop s rest

def hikStreamFeed (s : HikStream) (data : List UInt8) : Bool × HikStream :=
  if s.state = .failed then (false, s) else feedLoop message s data

end

end ZoneLite
