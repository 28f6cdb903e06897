import Symbolication.Decoder.Basic
import Symbolication.Proofs.Checked.Operation

/-!
Readers, and the programs that read with them. A reader keeps its window whole and counts the bytes
that have been read; every access to the window is a slice of it, so a program that goes out of the
window stops. A program that fails leaves the reader somewhere too, so a check that comes behind a
move would show.
-/

namespace Symbolication

structure Reader where
  source : DebugSection
  /-- Section offset of the first byte of the window. -/
  origin : Nat
  data : Bytes
  /-- Bytes of the window that have been read. -/
  position : Nat
deriving DecidableEq, Repr

namespace Reader

/-- A reader for a whole section. -/
def ofSection (source : DebugSection) (bytes : Bytes) : Reader :=
  { source, origin := 0, data := bytes, position := 0 }

/-- A reader for the bytes of a section from an offset on. -/
def startAt (source : DebugSection) (bytes : Bytes) (offset : Nat) :
    ExceptT DecodeError Checked Reader :=
  if bytes.length < offset then throw { source, offset, fault := .offsetOutOfBounds }
  else do
    let data ← Checked.slice bytes offset bytes.length
    pure { source, origin := offset, data, position := 0 }

def offset (reader : Reader) : Nat := reader.origin + reader.position

/-- Section offset behind the last byte of the window. -/
def stop (reader : Reader) : Nat := reader.origin + reader.data.length

def isFinished (reader : Reader) : Bool := reader.data.length ≤ reader.position

def left (reader : Reader) : Checked Nat :=
  Checked.subtract reader.data.length reader.position

def remaining (reader : Reader) : Checked Bytes :=
  Checked.slice reader.data reader.position reader.data.length

def error (reader : Reader) (fault : DecodeFault) : DecodeError :=
  { source := reader.source, offset := reader.offset, fault }

def advance (reader : Reader) (count : Nat) : Reader :=
  { reader with position := reader.position + count }

end Reader

abbrev Reading := ExceptT DecodeError (StateT Reader Checked)

namespace Reading

variable {α β : Type}

def offset : Reading Nat := Reader.offset <$> get

def stop : Reading Nat := Reader.stop <$> get

def isFinished : Reading Bool := Reader.isFinished <$> get

def failAt (offset : Nat) (fault : DecodeFault) : Reading α := do
  let reader ← get
  throw { source := reader.source, offset, fault }

def fail (fault : DecodeFault) : Reading α := do
  let reader ← get
  throw (reader.error fault)

/-- The program, if `count` bytes are left. -/
def ifEnough (count : Nat) (program : Reading α) : Reading α := do
  let reader ← get
  let left ← reader.left
  if left < count then fail .unexpectedEnd else program

def skip (count : Nat) : Reading Unit :=
  ifEnough count (modify (·.advance count))

/-- A reader for the next `length` bytes, which this one passes over. -/
def window (length : Nat) : Reading Reader :=
  ifEnough length do
    let reader ← get
    let data ← Checked.slice reader.data reader.position (reader.position + length)
    modify (·.advance length)
    pure { source := reader.source, origin := reader.offset, data, position := 0 }

/-- Exactly `count` bytes. -/
def take (count : Nat) : Reading Bytes :=
  ifEnough count do
    let start ← get
    modify (·.advance count)
    -- The bytes are cut out behind the move; only the check in front keeps this in range.
    let behind ← get
    Checked.slice start.data start.position behind.position

/-- Exactly `count` bytes, copied. -/
def array (count : Nat) : Reading Bytes := do
  let bytes ← take count
  Checked.copy count bytes

def unsignedBytes (count : Nat) : Reading Nat := Bytes.littleEndian <$> array count

def byte : Reading UInt8 := do
  let bytes ← array 1
  Checked.item bytes 0

def signedByte : Reading Int8 := UInt8.toInt8 <$> UInt8.ofNat <$> unsignedBytes 1

def uint16 : Reading UInt16 := UInt16.ofNat <$> unsignedBytes 2

def uint32 : Reading UInt32 := UInt32.ofNat <$> unsignedBytes 4

def uint64 : Reading UInt64 := UInt64.ofNat <$> unsignedBytes 8

def word : Width → Reading UInt64
  | .one => UInt8.toUInt64 <$> byte
  | .two => UInt16.toUInt64 <$> uint16
  | .four => UInt32.toUInt64 <$> uint32
  | .eight => uint64

/-- An address whose size has not been checked before. -/
def address (size : UInt8) : Reading UInt64 :=
  match Width.ofUInt8? size with
  | some width => word width
  | none => fail (.unsupportedAddressSize size)

/-- A number in base 128 at the front of the bytes that are left. -/
def leb128 (decode : Bytes → Except Leb128.Fault (α × Nat)) : Reading α := do
  let reader ← get
  let bytes ← reader.remaining
  match decode bytes with
  | .error .truncated => fail .unexpectedEnd
  | .error .overflow => fail .integerOverflow
  | .ok (number, count) => do
      modify (·.advance count)
      pure number

def unsigned : Reading UInt64 := leb128 Leb128.decodeUnsigned

def signed : Reading Int64 := leb128 Leb128.decodeSigned

/-- A number that counts bytes in memory. One that is too large is reported at `start`. -/
def count (start : Nat) (number : UInt64) : Reading Nat :=
  match Bytes.count? number with
  | some count => pure count
  | none => failAt start .integerOverflow

/-- A number in base 128 that counts bytes in memory. It is looked at when the reader has passed
over it. -/
def length : Reading Nat := do
  let start ← offset
  let number ← unsigned
  count start number

def terminated : Reading Bytes := do
  let reader ← get
  let bytes ← reader.remaining
  match bytes.findIdx? (· = 0) with
  | none => fail .unterminatedString
  | some length => do
      modify (·.advance (length + 1))
      Checked.slice bytes 0 length

def text : Reading String := Utf8.lossyText <$> terminated

/-- The outcome of a program, and where it leaves the reader. -/
def apply (program : Reading α) (reader : Reader) : Checked (Except DecodeError α × Reader) :=
  program.run.run reader

/-- What a program finds, with the reader behind it. -/
def result (program : Reading α) (reader : Reader) : ExceptT DecodeError Checked (α × Reader) :=
  ExceptT.mk ((fun (outcome, next) => outcome.map fun value => (value, next)) <$>
    program.apply reader)

/-- What a program finds. -/
def value (program : Reading α) (reader : Reader) : ExceptT DecodeError Checked α :=
  (·.1) <$> program.result reader

/-- A program that reads in a window. -/
def within (window : Reader) (program : Reading α) : Reading α :=
  Checked.stateless (program.value window)

/-- The result of a program started at an offset of a section. -/
def runAt (program : Reading α) (source : DebugSection) (bytes : Bytes) (offset : Nat) :
    ExceptT DecodeError Checked α := do
  let reader ← Reader.startAt source bytes offset
  program.value reader

theorem apply_pure (value : α) (reader : Reader) :
    (pure value : Reading α).apply reader = .ok (.ok value, reader) := rfl

theorem apply_fail (fault : DecodeFault) (reader : Reader) :
    (fail fault : Reading α).apply reader = .ok (.error (reader.error fault), reader) := rfl

theorem apply_get_bind (continuation : Reader → Reading α) (reader : Reader) :
    (get >>= continuation).apply reader = (continuation reader).apply reader := rfl

theorem apply_modify_bind (change : Reader → Reader) (continuation : Unit → Reading α)
    (reader : Reader) :
    (modify change >>= continuation).apply reader = (continuation ()).apply (change reader) := rfl

theorem apply_checked {operation : Checked α} {value : α} (inRange : operation = .ok value)
    (reader : Reader) : (liftM operation : Reading α).apply reader = .ok (.ok value, reader) := by
  rw [inRange]
  rfl

theorem apply_checked_bind {operation : Checked α} {value : α} (inRange : operation = .ok value)
    (continuation : α → Reading β) (reader : Reader) :
    ((liftM operation : Reading α) >>= continuation).apply reader =
      (continuation value).apply reader := by
  rw [inRange]
  rfl

theorem apply_bind_ok {program : Reading α} {value : α} {reader next : Reader}
    (outcome : program.apply reader = .ok (.ok value, next)) (continuation : α → Reading β) :
    (program >>= continuation).apply reader = (continuation value).apply next := by
  change (program.apply reader >>= fun result =>
    (ExceptT.bindCont continuation result.1).run result.2) = _
  rw [outcome]
  rfl

theorem apply_bind_error {program : Reading α} {error : DecodeError} {reader next : Reader}
    (outcome : program.apply reader = .ok (.error error, next)) (continuation : α → Reading β) :
    (program >>= continuation).apply reader = .ok (.error error, next) := by
  change (program.apply reader >>= fun result =>
    (ExceptT.bindCont continuation result.1).run result.2) = _
  rw [outcome]
  rfl

/-- What is found behind a program that fails is nothing, wherever it left the reader. -/
theorem result_bind (program : Reading α) (continuation : α → Reading β) (reader : Reader) :
    (program >>= continuation).result reader =
      program.result reader >>= fun found => (continuation found.1).result found.2 := by
  apply ExceptT.ext
  rw [ExceptT.run_bind]
  unfold result
  cases outcome : program.apply reader with
  | error trap =>
      have stops : (program >>= continuation).apply reader = .error trap := by
        change (program.apply reader >>= _) = _
        rw [outcome]
        rfl
      rw [stops]
      rfl
  | ok found =>
      obtain ⟨_ | value, next⟩ := found
      · rw [apply_bind_error outcome]
        rfl
      · rw [apply_bind_ok outcome]
        rfl

theorem result_stateless (program : ExceptT DecodeError Checked α) (reader : Reader) :
    Reading.result (Checked.stateless program) reader =
      program >>= fun value => pure (value, reader) := by
  have unmoved : Reading.apply (Checked.stateless program) reader =
      program.run >>= fun outcome => pure (outcome, reader) := rfl
  apply ExceptT.ext
  rw [ExceptT.run_bind]
  unfold result
  rw [unmoved]
  rcases program.run with trap | _ | value <;> rfl

end Reading

end Symbolication
