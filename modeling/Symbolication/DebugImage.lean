import Symbolication.Address
import Symbolication.AddressIndex
import Symbolication.CompileUnit.Subprogram

/-!
The debugging information of one object. Addresses are resolved through the index to a unit, through
its line table to a source line, and through its subprograms to a function. Units are decoded when
they are first needed and kept; what is kept changes no answer.
-/

namespace Symbolication

structure Location where
  address : UInt64
  file : String
  line : UInt64
  function : Option String
deriving DecidableEq, Repr

def Location.text (location : Location) : String :=
  location.file ++ ":" ++ toString location.line.toNat

structure DebugImage where
  sections : DebugSections
  index : AddressIndex
deriving DecidableEq, Repr

/-- The units that are kept, by offset. -/
structure UnitCache where
  units : List (Nat × CompileUnit)
  /-- How many units have been decoded. -/
  size : Nat
deriving DecidableEq, Repr

namespace UnitCache

def empty : UnitCache := { units := [], size := 0 }

def find? (cache : UnitCache) (offset : Nat) : Option CompileUnit := cache.units.lookup offset

/-- One more unit has been decoded. -/
def raise (cache : UnitCache) : UnitCache := { cache with size := cache.size + 1 }

def insert (cache : UnitCache) (offset : Nat) (unit : CompileUnit) : UnitCache :=
  { cache with units := (offset, unit) :: cache.units }

end UnitCache

/-- A lookup that may fail; units that it has decoded are kept even then. -/
abbrev Lookup := ExceptT DecodeError (StateM UnitCache)

/-- Why the text of an address cannot be resolved. -/
inductive ResolveError where
  | invalidAddress (text : String)
  | decode (error : DecodeError)
deriving DecidableEq, Repr

def ResolveError.message : ResolveError → String
  | invalidAddress text => Address.invalidMessage text
  | decode error => error.message

namespace DebugImage

def ofSections (sections : DebugSections) : Except DecodeError DebugImage := do
  let index ← AddressIndex.decode sections.addressRanges
  .ok { sections, index }

section Resolution

variable [LinkageNames] {m : Type → Type} [Monad m] [MonadLiftT (Except DecodeError) m]

/-- The unit that contains an offset, fetched by where it begins. -/
def containingWith (image : DebugImage) (fetch : Nat → m CompileUnit) (offset : Nat) :
    m (Option CompileUnit) := do
  match ← (monadLift (UnitHeader.containing? image.sections.info offset) :
      m (Option UnitHeader)) with
  | none => pure none
  | some header => some <$> fetch header.offset

def functionAtWith (image : DebugImage) (fetch : Nat → m CompileUnit) (unit : CompileUnit)
    (address : UInt64) : m (Option String) :=
  unit.functionAt (image.containingWith fetch) image.sections.rangeLists address

/-- The location of an address, if its unit has a line for it. -/
def resolveWith (image : DebugImage) (fetch : Nat → m CompileUnit) (address : UInt64) :
    m (Option Location) :=
  match image.index.unitOffset? address with
  | none => pure none
  | some offset => do
      let unit ← fetch offset
      match unit.lineTable.bind (·.locate? address) with
      | none => pure none
      | some (row, file) => do
          let function ← image.functionAtWith fetch unit address
          pure (some { address, file, line := row.line, function })

end Resolution

def decodeUnit (image : DebugImage) (offset : Nat) : Except DecodeError CompileUnit :=
  CompileUnit.decode image.sections offset

/-- The unit at an offset, decoded unless it has been before. A unit that fails is neither counted
nor kept. -/
def unit (image : DebugImage) (offset : Nat) : Lookup CompileUnit := do
  match (← get).find? offset with
  | some unit => pure unit
  | none => do
      let unit ← (monadLift (image.decodeUnit offset) : Lookup CompileUnit)
      modify UnitCache.raise
      modify (·.insert offset unit)
      pure unit

def unitContaining (image : DebugImage) (offset : Nat) : Lookup (Option CompileUnit) :=
  image.containingWith image.unit offset

variable [LinkageNames]

def functionAt (image : DebugImage) (unit : CompileUnit) (address : UInt64) :
    Lookup (Option String) :=
  image.functionAtWith image.unit unit address

def functionName (image : DebugImage) (unit : CompileUnit) (index : Nat) :
    Lookup (Option String) :=
  unit.functionName image.unitContaining index

def qualifiedName (image : DebugImage) (unit : CompileUnit) (index : Nat) :
    Lookup (Option String) :=
  unit.qualifiedName image.unitContaining index

def resolve (image : DebugImage) (address : UInt64) : Lookup (Option Location) :=
  image.resolveWith image.unit address

/-- The location of the address that a text denotes. -/
def resolveText (image : DebugImage) (text : String) :
    ExceptT ResolveError (StateM UnitCache) (Option Location) :=
  match Address.parse? text with
  | none => throw (.invalidAddress text)
  | some address => (image.resolve address).adapt .decode

def summary (image : DebugImage) (cache : UnitCache) : String :=
  "Dwarf \x7b aranges: " ++ toString image.index.sets.length ++ ", parsed_units: " ++
    toString cache.size ++ " \x7d"

end DebugImage

end Symbolication
