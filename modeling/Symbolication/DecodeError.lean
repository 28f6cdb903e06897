import Symbolication.DebugSection
import Symbolication.Form

/-!
What can be wrong with debugging information, and where. An offset counts from the start of the
section that the error names, so a fault can be found in a hex dump.
-/

namespace Symbolication

/-- Why a line program has no table. -/
inductive LineProgramFault where
  | zeroLineRange
  | zeroOpcodeBase
  | zeroMaximumOperations
  /-- A file, counted from one, names an include directory that does not exist. -/
  | missingDirectory (file : Nat)
  /-- A row names a file that does not exist. -/
  | missingFile (address file : UInt64)
deriving DecidableEq, Repr

def LineProgramFault.message : LineProgramFault → String
  | zeroLineRange => "line_range is zero"
  | zeroOpcodeBase => "opcode_base is zero"
  | zeroMaximumOperations => "maximum_operations_per_instruction is zero"
  | missingDirectory file => "file " ++ toString file ++ " names a missing include directory"
  | missingFile address file =>
      "row at " ++ Text.hex address.toNat ++ " uses file index " ++ toString file.toNat

inductive DecodeFault where
  /-- A length from the range that announces the 64-bit format or is reserved. -/
  | unsupportedFormat
  | unsupportedVersion (version : UInt16)
  /-- A variable-length number with more than 64 bits. -/
  | integerOverflow
  | unexpectedEnd
  | unterminatedString
  | unknownAbbreviation (code : UInt64)
  | duplicateAbbreviation (code : UInt64)
  | unsupportedAddressSize (size : UInt8)
  | unsupportedForm (form : FormCode)
  /-- Reading was to start behind the end of the section. -/
  | offsetOutOfBounds
  | invalidLineProgram (fault : LineProgramFault)
deriving DecidableEq, Repr

/-- A fault at a place in a section. -/
structure DecodeError where
  source : DebugSection
  offset : Nat
  fault : DecodeFault
deriving DecidableEq, Repr

namespace DecodeError

def place (error : DecodeError) : String :=
  " (" ++ error.source.name ++ " offset " ++ Text.hex error.offset ++ ")"

def message (error : DecodeError) : String :=
  match error.fault with
  | .unsupportedFormat => "64-bit DWARF format is not supported" ++ error.place
  | .unsupportedVersion version =>
      "unsupported DWARF version " ++ toString version.toNat ++ error.place
  | .integerOverflow => "integer does not fit in 64 bits" ++ error.place
  | .unexpectedEnd => "unexpected end of data" ++ error.place
  | .unterminatedString => "unterminated string" ++ error.place
  | .unknownAbbreviation code =>
      "abbreviation code " ++ toString code.toNat ++ " not declared" ++ error.place
  | .duplicateAbbreviation code =>
      "abbreviation code " ++ toString code.toNat ++ " declared twice" ++ error.place
  | .unsupportedAddressSize size =>
      "unsupported address size " ++ toString size.toNat ++ error.place
  | .unsupportedForm form => "unsupported attribute form " ++ form.text ++ error.place
  | .offsetOutOfBounds =>
      "offset " ++ Text.hex error.offset ++ " is outside " ++ error.source.name
  | .invalidLineProgram fault => "invalid line program" ++ error.place ++ ": " ++ fault.message

end DecodeError

/-- A number that counts bytes in memory. One that is too large is reported at the offset. -/
def DebugSection.count (source : DebugSection) (offset : Nat) (number : UInt64) :
    Except DecodeError Nat :=
  match Bytes.count? number with
  | some count => .ok count
  | none => .error { source, offset, fault := .integerOverflow }

theorem DebugSection.count_eq (source : DebugSection) (offset : Nat) (number : UInt64) :
    source.count offset number = .ok number.toNat := by
  unfold count
  rw [Bytes.count?_eq]

end Symbolication
