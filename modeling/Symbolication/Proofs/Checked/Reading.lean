import Symbolication.Decoder.Header
import Symbolication.Decoder.Repetition
import Symbolication.Proofs.Reader.Basic

/-!
Readings that are put together from those of a reader: numbers of headers, and repetitions. A
repetition is held to as many rounds as its window has bytes, and one.
-/

namespace Symbolication.Reading

variable {α β σ : Type}

def located (reading : Reading α) : Reading (Nat × α) := do
  let start ← offset
  let value ← reading
  pure (start, value)

def initialLength : Reading Nat := do
  let (start, length) ← located uint32
  if length < Decoder.lengthEscape then pure length.toNat else failAt start .unsupportedFormat

def version (start : Nat) : Reading Version := do
  let number ← uint16
  match Version.ofNumber? number with
  | some version => pure version
  | none => failAt start (.unsupportedVersion number)

def checkedWidth (start : Nat) (size : UInt8) : Reading Width :=
  match Width.ofUInt8? size with
  | some width => pure width
  | none => failAt start (.unsupportedAddressSize size)

/-- A byte with its offset, which is found by stepping back. -/
def locatedBehind : Reading (Nat × UInt8) := do
  let value ← byte
  let behind ← offset
  let start ← (Checked.subtract behind 1 : Checked Nat)
  pure (start, value)

/-- Runs rounds from a state until one ends for good, but no more than `count` of them. -/
def runRounds (round : σ → Reading (Decoder.Round σ)) : Nat → σ → Reading σ
  | 0, _ => (throw Trap.rounds : Checked σ)
  | count + 1, state => do
      match ← round state with
      | .finished => pure state
      | .again state' => runRounds round count state'

/-- Rounds from a state, no more than there are bytes in the window and one. -/
def rounds (round : σ → Reading (Decoder.Round σ)) (state : σ) : Reading σ := do
  let reader ← get
  runRounds round (reader.data.length + 1) state

def items (item : Reading (Option α)) : Reading (List α) :=
  List.reverse <$> rounds (Decoder.Round.ofItem · <$> item) []

def itemsUntil (head : Reading β) (body : β → Reading (Option α)) : Reading (List α) :=
  items (head >>= body)

def itemIfLeft (head : Reading β) (body : β → Reading (Option α)) : Reading (Option α) := do
  if ← isFinished then pure none else head >>= body

def itemsWhileLeft (head : Reading β) (body : β → Reading (Option α)) : Reading (List α) :=
  items (itemIfLeft head body)

def roundIfLeft (head : Reading β) (body : σ → β → Reading (Decoder.Round σ)) (state : σ) :
    Reading (Decoder.Round σ) := do
  if ← isFinished then pure .finished else head >>= body state

def roundsWhileLeft (head : Reading β) (body : σ → β → Reading (Decoder.Round σ)) (state : σ) :
    Reading σ :=
  rounds (roundIfLeft head body) state

end Symbolication.Reading
