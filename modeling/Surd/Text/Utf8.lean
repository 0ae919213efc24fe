import Surd.Fault

/-! Decoding UTF-8. The first byte of a character says how many follow it and bounds the second
one; decoding stops at the first byte that breaks these rules. -/

namespace Surd.Text

/-- What the first byte of a character says: its own bits, how many bytes follow, and the least
and the largest second byte. -/
def leading? (byte : Nat) : Option (Nat × Nat × Nat × Nat) :=
  if byte < 0x80 then some (byte, 0, 0x80, 0xBF)
  else if byte < 0xC2 then none
  else if byte < 0xE0 then some (byte - 0xC0, 1, 0x80, 0xBF)
  else if byte = 0xE0 then some (0, 2, 0xA0, 0xBF)
  else if byte = 0xED then some (0xD, 2, 0x80, 0x9F)
  else if byte < 0xF0 then some (byte - 0xE0, 2, 0x80, 0xBF)
  else if byte = 0xF0 then some (0, 3, 0x90, 0xBF)
  else if byte < 0xF4 then some (byte - 0xF0, 3, 0x80, 0xBF)
  else if byte = 0xF4 then some (4, 3, 0x80, 0x8F)
  else none

/-- How the bytes after the first one of a character end: with its code point and the bytes that
are left, or after so many good ones, at the end of the bytes or at a wrong one. -/
inductive Tail where
  | complete (code : Nat) (rest : List Nat)
  | ended (good : Nat)
  | broken (good : Nat)

/-- Reads so many following bytes; the bounds are those of the next one. -/
def tail (code good : Nat) : Nat → Nat → Nat → List Nat → Tail
  | 0, _, _, rest => .complete code rest
  | _ + 1, _, _, [] => .ended good
  | left + 1, least, largest, byte :: rest =>
    if least ≤ byte ∧ byte ≤ largest then
      tail (code * 64 + (byte - 0x80)) (good + 1) left 0x80 0xBF rest
    else .broken good

theorem tail_complete_le {code good left least largest : Nat} {bytes rest : List Nat} {result : Nat}
    (read : tail code good left least largest bytes = .complete result rest) :
    rest.length ≤ bytes.length := by
  induction left generalizing code good least largest bytes with
  | zero =>
    simp only [tail, Tail.complete.injEq] at read
    simp [← read.2]
  | succ left ih =>
    cases bytes with
    | nil => simp [tail] at read
    | cons byte bytes =>
      simp only [tail] at read
      split at read
      · have := ih read
        simp only [List.length_cons]
        omega
      · simp at read

def decodeFrom (position : Nat) (bytes : List Nat) : Except Fault (List Char) :=
  match bytes with
  | [] => .ok []
  | byte :: rest =>
    match leading? byte with
    | none => .error (.undecodable byte position (position + 1) "invalid start byte")
    | some (bits, following, least, largest) =>
      match _read : tail bits 0 following least largest rest with
      | .complete code rest =>
        (decodeFrom (position + 1 + following) rest).map (Char.ofNat code :: ·)
      | .ended good =>
        .error (.undecodable byte position (position + 1 + good) "unexpected end of data")
      | .broken good =>
        .error (.undecodable byte position (position + 1 + good) "invalid continuation byte")
termination_by bytes.length
decreasing_by
  have := tail_complete_le _read
  simp only [List.length_cons]
  omega

def decode (bytes : ByteArray) : Except Fault String :=
  (decodeFrom 0 (bytes.toList.map UInt8.toNat)).map String.ofList

end Surd.Text
