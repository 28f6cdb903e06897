import Symbolication.Entry.Attribute

/-!
Debugging entries. A unit holds its entries as a flat row: an entry that has children is followed by
them, and a null entry closes the scope opened last. Decoding reads the row; nesting gives every
entry the index of the scope it stands in.
-/

namespace Symbolication

/-- An entry as it stands in the row. -/
structure EntryBody where
  /-- Offset of the abbreviation code from the first entry of the unit. -/
  offset : Nat
  /-- The abbreviation code; zero for a null entry. -/
  code : UInt64
  tag : Tag
  hasChildren : Bool
  attributes : List Attribute
deriving DecidableEq, Repr

/-- An entry in its scope. -/
structure Entry extends EntryBody where
  /-- Index of the enclosing entry; for a null entry, of the entry it closes. -/
  parent : Option Nat
deriving DecidableEq, Repr

namespace EntryBody

def isNull (entry : EntryBody) : Bool := entry.code = 0

def attribute? (entry : EntryBody) (name : AttributeName) : Option Attribute :=
  entry.attributes.find? (·.name = name)

def value? (entry : EntryBody) (name : AttributeName) : Option AttributeValue :=
  (entry.attribute? name).map (·.value)

def name? (entry : EntryBody) : Option String :=
  (entry.value? .name).bind AttributeValue.text?

def null (offset : Nat) : EntryBody :=
  { offset, code := 0, tag := .null, hasChildren := false, attributes := [] }

/-- An entry behind its code, which begins at `start`. -/
def decoder (abbreviations : AbbreviationTable) (context : AttributeContext)
    (first start : Nat) (code : UInt64) : Decoder EntryBody :=
  if code = 0 then pure (null (start - first))
  else
    match abbreviations.find? code with
    | none => Decoder.failAt start (.unknownAbbreviation code)
    | some declaration => do
        let attributes ← declaration.attributes.mapM (Attribute.decoder context)
        pure {
          offset := start - first
          code
          tag := declaration.tag
          hasChildren := declaration.hasChildren
          attributes }

def row (abbreviations : AbbreviationTable) (context : AttributeContext) :
    Decoder (List EntryBody) := do
  let first ← Decoder.offset
  .itemsWhileLeft (.located .unsigned) (Decoder.located_consumes Decoder.unsigned_consumes)
    fun (start, code) => some <$> decoder abbreviations context first start code

end EntryBody

/-- The entries of a row in their scopes, and where each of them begins. -/
structure EntryTable where
  entries : List Entry
  /-- The index of every entry by its offset, those entered last first. -/
  indices : List (Nat × Nat)
deriving DecidableEq, Repr

/-- A row whose entries have been given their scopes so far. -/
structure Nesting where
  entries : Array Entry
  indices : List (Nat × Nat)
  /-- Indices of the open scopes, the innermost first. -/
  scopes : List Nat
deriving DecidableEq, Repr

namespace Nesting

def empty : Nesting := { entries := #[], indices := [], scopes := [] }

/-- The scopes open behind an entry at `index`. -/
def scopesAfter (scopes : List Nat) (index : Nat) (entry : EntryBody) : List Nat :=
  if entry.isNull then scopes.tail
  else if entry.hasChildren then index :: scopes
  else scopes

def add : Nesting → EntryBody → Nesting
  | { entries, indices, scopes }, entry =>
      let index := entries.size
      let indices := (entry.offset, index) :: indices
      let parent := scopes.head?
      let scopes := scopesAfter scopes index entry
      { entries := entries.push { entry with parent }, indices, scopes }

def addAll (nesting : Nesting) (row : List EntryBody) : Nesting := row.foldl add nesting

theorem addAll_append (nesting : Nesting) (front behind : List EntryBody) :
    nesting.addAll (front ++ behind) = (nesting.addAll front).addAll behind :=
  List.foldl_append

def table (nesting : Nesting) : EntryTable :=
  { entries := nesting.entries.toList, indices := nesting.indices }

end Nesting

namespace EntryTable

/-- Gives each entry of a row the innermost scope open before it. -/
def ofRow (row : List EntryBody) : EntryTable := (Nesting.empty.addAll row).table

def decoder (abbreviations : AbbreviationTable) (context : AttributeContext) :
    Decoder EntryTable :=
  ofRow <$> EntryBody.row abbreviations context

/-- Index of the entry at an offset from the first entry. -/
def indexAt? (table : EntryTable) (offset : Nat) : Option Nat := table.indices.lookup offset

end EntryTable

end Symbolication
