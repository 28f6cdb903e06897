import Symbolication.Bytes

/-!
UTF-8 read one byte at a time. The scalars of a byte list are its characters in order, with one
mark for each maximal part that begins no well-formed character. Lossy text writes U+FFFD for a
mark; strict text refuses it.
-/

namespace Symbolication.Utf8

/-- A character that has begun: its bits so far, the bytes still owed, and the bounds that the next
byte has to keep. -/
structure Pending where
  bits : Nat
  owed : Nat
  low : UInt8 := 0x80
  high : UInt8 := 0xbf
deriving DecidableEq, Repr

/-- What one byte says when no character has begun. -/
inductive Opening where
  | character (value : Char)
  | pending (pending : Pending)
  | malformed
deriving DecidableEq, Repr

/-- The first byte of a character. The bounds of the second byte keep out overlong forms,
surrogates, and everything above U+10FFFF. -/
def opening (byte : UInt8) : Opening :=
  if byte < 0x80 then .character (Char.ofNat byte.toNat)
  else if byte < 0xc2 then .malformed
  else if byte < 0xe0 then .pending { bits := byte.toNat - 0xc0, owed := 0 }
  else if byte = 0xe0 then .pending { bits := 0, owed := 1, low := 0xa0 }
  else if byte = 0xed then .pending { bits := 0xd, owed := 1, high := 0x9f }
  else if byte < 0xf0 then .pending { bits := byte.toNat - 0xe0, owed := 1 }
  else if byte = 0xf0 then .pending { bits := 0, owed := 2, low := 0x90 }
  else if byte < 0xf4 then .pending { bits := byte.toNat - 0xf0, owed := 2 }
  else if byte = 0xf4 then .pending { bits := 4, owed := 2, high := 0x8f }
  else .malformed

/-- A scalar of the text: a character, or a mark for a malformed part. -/
abbrev Scalar := Option Char

/-- One byte with no character begun: the scalars it completes and what has begun after it. -/
def start (byte : UInt8) : List Scalar × Option Pending :=
  match opening byte with
  | .character value => ([some value], none)
  | .pending pending => ([], some pending)
  | .malformed => ([none], none)

/-- One byte. A byte that cannot continue the character begun ends that part and starts anew. -/
def step : Option Pending → UInt8 → List Scalar × Option Pending
  | none, byte => start byte
  | some pending, byte =>
      if pending.low ≤ byte ∧ byte ≤ pending.high then
        let bits := pending.bits * 64 + (byte.toNat - 0x80)
        match pending.owed with
        | 0 => ([some (Char.ofNat bits)], none)
        | owed + 1 => ([], some { bits, owed })
      else
        let (scalars, next) := start byte
        (none :: scalars, next)

/-- The scalars from a state on. A character that the bytes do not complete is malformed. -/
def scalarsFrom : Option Pending → Bytes → List Scalar
  | none, [] => []
  | some _, [] => [none]
  | pending, byte :: rest =>
      let (scalars, next) := step pending byte
      scalars ++ scalarsFrom next rest

def scalars (bytes : Bytes) : List Scalar := scalarsFrom none bytes

/-- The text of the bytes, each malformed part written as U+FFFD. -/
def lossyText (bytes : Bytes) : String :=
  String.ofList ((scalars bytes).map (·.getD '\uFFFD'))

def text? (bytes : Bytes) : Option String :=
  ((scalars bytes).mapM id).map String.ofList

end Symbolication.Utf8
