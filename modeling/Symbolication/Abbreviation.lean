import Symbolication.AttributeName
import Symbolication.Decoder.Repetition
import Symbolication.Tag

/-!
Abbreviation tables. A declaration gives the layout of all entries that carry its code: their tag,
whether children follow, and the name and form of each attribute. A code may be declared once in a
table, since entries with it would be ambiguous otherwise.
-/

namespace Symbolication

structure AttributeDeclaration where
  name : AttributeName
  form : FormCode
deriving DecidableEq, Repr

structure Abbreviation where
  code : UInt64
  tag : Tag
  hasChildren : Bool
  attributes : List AttributeDeclaration
deriving DecidableEq, Repr

namespace Abbreviation

/-- Attribute declarations up to a pair of zeros. -/
def attributeDeclarations : Decoder (List AttributeDeclaration) :=
  .itemsUntil .unsigned Decoder.unsigned_consumes fun name => do
    let form ← Decoder.unsigned
    pure (if name = 0 ∧ form = 0 then none else some { name := ⟨name⟩, form := ⟨form⟩ })

def decoder (code : UInt64) : Decoder Abbreviation := do
  let tag ← Decoder.unsigned
  let children ← Decoder.byte
  let attributes ← attributeDeclarations
  pure { code, tag := ⟨tag⟩, hasChildren := children ≠ 0, attributes }

end Abbreviation

/-- Declarations with different codes. -/
structure AbbreviationTable where
  declarations : List Abbreviation
deriving DecidableEq, Repr

namespace AbbreviationTable

def empty : AbbreviationTable := { declarations := [] }

def size (table : AbbreviationTable) : Nat := table.declarations.length

def isEmpty (table : AbbreviationTable) : Bool := table.declarations.isEmpty

def find? (table : AbbreviationTable) (code : UInt64) : Option Abbreviation :=
  table.declarations.find? (·.code = code)

def insert (table : AbbreviationTable) (declaration : Abbreviation) : AbbreviationTable :=
  { declarations := declaration :: table.declarations }

/-- Adds the declaration of a code found at `start`; a zero code ends the table. -/
def declare (table : AbbreviationTable) : Nat × UInt64 → Decoder (Decoder.Round AbbreviationTable)
  | (start, code) =>
      if code = 0 then pure .finished
      else do
        let declaration ← Abbreviation.decoder code
        if (table.find? code).isSome then
          Decoder.failAt start (.duplicateAbbreviation code)
        else
          pure (.again (table.insert declaration))

def decoder : Decoder AbbreviationTable :=
  .roundsWhileLeft (.located .unsigned) (Decoder.located_consumes Decoder.unsigned_consumes)
    declare empty

def decode (abbreviations : Bytes) (offset : Nat) : Except DecodeError AbbreviationTable :=
  decoder.runAt .abbreviations abbreviations offset

end AbbreviationTable

end Symbolication
