import Symbolication.Bytes

/-!
Variable-length numbers in base 128. An encoding ends at its first byte below 128; each byte gives
seven bits, the lowest group first, and a signed number takes its sign from bit 6 of the last byte.
Redundant groups are accepted up to eighteen bytes; the value itself has to fit in 64 bits.
-/

namespace Symbolication.Leb128

/-- Why no number can be decoded. -/
inductive Fault where
  /-- The bytes end before the encoding does. -/
  | truncated
  /-- The encoding is too long, or its value does not fit in 64 bits. -/
  | overflow
deriving DecidableEq, Repr

/-- Eighteen groups hold 126 bits, more than any padded 64-bit number needs. -/
def maximumLength : Nat := 18

/-- Splits off the first encoding, of at most `limit` bytes. -/
def splitEncoding : Nat → Bytes → Except Fault (Bytes × Bytes)
  | _, [] => .error .truncated
  | 0, _ :: _ => .error .overflow
  | limit + 1, byte :: rest =>
      if byte < 128 then .ok ([byte], rest)
      else
        match splitEncoding limit rest with
        | .error fault => .error fault
        | .ok (encoding, suffix) => .ok (byte :: encoding, suffix)

theorem splitEncoding_sound {limit : Nat} {bytes encoding suffix : Bytes}
    (split : splitEncoding limit bytes = .ok (encoding, suffix)) :
    bytes = encoding ++ suffix ∧ 0 < encoding.length := by
  induction limit generalizing bytes encoding suffix with
  | zero => cases bytes <;> simp [splitEncoding] at split
  | succ limit induction =>
      cases bytes with
      | nil => simp [splitEncoding] at split
      | cons byte rest =>
          simp only [splitEncoding] at split
          split at split
          · simp only [Except.ok.injEq, Prod.mk.injEq] at split
            simp [← split.1, split.2]
          · split at split
            · simp at split
            · rename_i inner tail inner_split
              have parts := induction inner_split
              simp only [Except.ok.injEq, Prod.mk.injEq] at split
              obtain ⟨rfl, rfl⟩ := split
              simp [parts.1]

def groupSum : Bytes → Nat
  | [] => 0
  | byte :: rest => byte.toNat % 128 + 128 * groupSum rest

/-- Whether the last group has its sign bit set. -/
def isNegative (encoding : Bytes) : Bool :=
  match encoding.getLast? with
  | some byte => 64 ≤ byte.toNat % 128
  | none => false

def signedSum (encoding : Bytes) : Int :=
  if isNegative encoding then groupSum encoding - Nat.pow 128 encoding.length
  else groupSum encoding

def unsignedValue (encoding : Bytes) : Except Fault UInt64 :=
  if groupSum encoding < UInt64.size then .ok (UInt64.ofNat (groupSum encoding))
  else .error .overflow

def signedValue (encoding : Bytes) : Except Fault Int64 :=
  if Int64.minValue.toInt ≤ signedSum encoding ∧ signedSum encoding ≤ Int64.maxValue.toInt then
    .ok (Int64.ofInt (signedSum encoding))
  else
    .error .overflow

/-- The unsigned number at the front of the bytes, and how many bytes it takes. -/
def decodeUnsigned (bytes : Bytes) : Except Fault (UInt64 × Nat) := do
  let (encoding, _) ← splitEncoding maximumLength bytes
  let value ← unsignedValue encoding
  .ok (value, encoding.length)

def decodeSigned (bytes : Bytes) : Except Fault (Int64 × Nat) := do
  let (encoding, _) ← splitEncoding maximumLength bytes
  let value ← signedValue encoding
  .ok (value, encoding.length)

end Symbolication.Leb128
