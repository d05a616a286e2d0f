import LoxScan.Text.Basic

/-! # UTF-8 text

Decoding is strict: the first sequence of bytes that is not well formed is reported with its place.

* `Utf8Fault` says which bytes are bad and why; `Utf8Fault.message` words it.
* `leadByte?` is the table of lead bytes: how many bytes follow, and which values the first of them
  may take.
* `decodeUtf8` reads a list of bytes with a small machine whose state is the sequence begun so far.
-/

namespace LoxScan

/-! ## Faults -/

inductive Utf8Reason where
  | invalidStart
  | invalidContinuation
  | unexpectedEnd
deriving DecidableEq, Repr

/-- A sequence that is not well formed: the offset and the value of its first byte, and its size. -/
structure Utf8Fault where
  offset : Nat
  firstByte : UInt8
  size : Nat
  reason : Utf8Reason
deriving DecidableEq, Repr

def Utf8Reason.message : Utf8Reason → String
  | invalidStart => "invalid start byte"
  | invalidContinuation => "invalid continuation byte"
  | unexpectedEnd => "unexpected end of data"

/-- A single bad byte is shown with its value, a longer sequence with its first and last place. -/
def Utf8Fault.message (fault : Utf8Fault) : String :=
  let place :=
    if fault.size = 1 then
      "byte 0x" ++ String.ofList (hexDigits 2 fault.firstByte.toNat)
        ++ " in position " ++ toString fault.offset
    else
      "bytes in position " ++ toString fault.offset ++ "-"
        ++ toString (fault.offset + fault.size - 1)
  "'utf-8' codec can't decode " ++ place ++ ": " ++ fault.reason.message

/-! ## The machine -/

/-- A sequence that has begun but not ended: its place, the bytes read so far and what they denote,
    the number of bytes still to come, and the bounds of the next one. -/
structure Utf8Sequence where
  offset : Nat
  firstByte : UInt8
  size : Nat
  value : Nat
  missing : Nat
  low : UInt8
  high : UInt8
deriving DecidableEq, Repr

/-- What a lead byte announces: its own share of the value, the number of bytes that follow, and
    the bounds of the first of them.  The narrow bounds keep out longer spellings of short
    sequences, surrogates and code points past the last one. -/
def leadByte? (b : UInt8) : Option (Nat × Nat × UInt8 × UInt8) :=
  if 0xC2 ≤ b ∧ b ≤ 0xDF then some (b.toNat - 0xC0, 1, 0x80, 0xBF)
  -- three bytes: below A0 the two-byte form would do, above 9F lie the surrogates
  else if b = 0xE0 then some (0, 2, 0xA0, 0xBF)
  else if b = 0xED then some (0xD, 2, 0x80, 0x9F)
  else if 0xE1 ≤ b ∧ b ≤ 0xEF then some (b.toNat - 0xE0, 2, 0x80, 0xBF)
  -- four bytes: below 90 the three-byte form would do, above 8F there are no code points
  else if b = 0xF0 then some (0, 3, 0x90, 0xBF)
  else if 0xF1 ≤ b ∧ b ≤ 0xF3 then some (b.toNat - 0xF0, 3, 0x80, 0xBF)
  else if b = 0xF4 then some (4, 3, 0x80, 0x8F)
  else none

inductive Utf8Move where
  | complete (c : Char)
  | pending (sequence : Utf8Sequence)
  | faulty (fault : Utf8Fault)
deriving DecidableEq, Repr

def beginSequence (offset : Nat) (b : UInt8) : Utf8Move :=
  if b < 0x80 then .complete (Char.ofNat b.toNat)
  else match leadByte? b with
    | some (value, missing, low, high) => .pending ⟨offset, b, 1, value, missing, low, high⟩
    | none => .faulty ⟨offset, b, 1, .invalidStart⟩

def continueSequence (s : Utf8Sequence) (b : UInt8) : Utf8Move :=
  if s.low ≤ b ∧ b ≤ s.high then
    let value := s.value * 0x40 + (b.toNat - 0x80)
    if s.missing ≤ 1 then .complete (Char.ofNat value)
    else .pending ⟨s.offset, s.firstByte, s.size + 1, value, s.missing - 1, 0x80, 0xBF⟩
  else .faulty ⟨s.offset, s.firstByte, s.size, .invalidContinuation⟩

/-- Decodes the bytes from an offset on, within a sequence if one has begun.  `read` holds the
    characters before, the last one first. -/
def decodeFrom (offset : Nat) (state : Option Utf8Sequence) (read : List Char) :
    List UInt8 → Except Utf8Fault (List Char)
  | [] => match state with
    | none => .ok read.reverse
    | some s => .error ⟨s.offset, s.firstByte, s.size, .unexpectedEnd⟩
  | b :: rest =>
    match state.elim (beginSequence offset b) (continueSequence · b) with
    | .complete c => decodeFrom (offset + 1) none (c :: read) rest
    | .pending s => decodeFrom (offset + 1) (some s) read rest
    | .faulty fault => .error fault

def decodeUtf8 (bytes : List UInt8) : Except Utf8Fault (List Char) :=
  decodeFrom 0 none [] bytes

end LoxScan
