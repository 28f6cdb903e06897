import Symbolication.CompileUnit.Basic
import Symbolication.LinkageName
import Symbolication.RangeList

/-!
Subprograms: the code that each covers and the name that it goes by. An entry without a name of its
own may refer to its declaration, in the same unit or in another one; the search for another unit is
a parameter, so that it may decode and keep units as it goes. So is the way to make linkage names
readable.
-/

namespace Symbolication.CompileUnit

/-- The code between a low address and a high one, which may be written as a size. -/
def contiguousCode (entry : Entry) : List AddressRange :=
  match (entry.value? .lowAddress).bind AttributeValue.address?, entry.attribute? .highAddress with
  | some low, some high =>
      let stop? :=
        match high.form.code.formClass? with
        | some .address => high.value.address?
        | some .constant => high.value.number?.map (low + ·)
        | _ => none
      match stop? with
      | some stop => [{ start := low, stop }]
      | none => []
  | _, _ => []

/-- The code that an entry covers. A range list counts alone; one that is no number covers
nothing. -/
def code (unit : CompileUnit) (rangeLists : Bytes) (entry : Entry) :
    Except DecodeError (List AddressRange) :=
  match entry.value? .ranges with
  | none => .ok (contiguousCode entry)
  | some value =>
      match value.number? with
      | none => .ok []
      | some offset => do
          let offset ← DebugSection.info.count (unit.sectionOffset entry) offset
          RangeList.decode rangeLists offset unit.header.addressWidth.toUInt8 unit.baseAddress

def coversAddress (unit : CompileUnit) (rangeLists : Bytes) (address : UInt64) (entry : Entry) :
    Except DecodeError Bool :=
  if entry.tag = .subprogram then
    (fun ranges => ranges.any (·.contains address)) <$> unit.code rangeLists entry
  else
    .ok false

/-- Index of the first entry that satisfies a test. The entries continue at `index`. -/
def firstIndex? (test : Entry → Except DecodeError Bool) :
    Nat → List Entry → Except DecodeError (Option Nat)
  | _, [] => .ok none
  | index, entry :: rest =>
      match test entry with
      | .error error => .error error
      | .ok true => .ok (some index)
      | .ok false => firstIndex? test (index + 1) rest

def subprogramAt? (unit : CompileUnit) (rangeLists : Bytes) (address : UInt64) :
    Except DecodeError (Option Nat) :=
  firstIndex? (unit.coversAddress rangeLists address) 0 unit.entries

/-- The readable form of an entry's linkage name. The vendor's attribute counts only where the
standard one is absent. -/
def linkageName? [LinkageNames] (entry : Entry) : Option String :=
  (((entry.value? .linkageName) <|> (entry.value? .vendorLinkageName)).bind
    AttributeValue.text?).map LinkageNames.readable

/-- The reference from an entry to its declaration. -/
def declaration? (entry : Entry) : Option AttributeValue :=
  (entry.value? .specification) <|> (entry.value? .abstractOrigin)

/-- References followed before a search for a name is given up. -/
def maximumHops : Nat := 8

section Names

variable [LinkageNames] {m : Type → Type} [Monad m]

/-- The entry that a reference in `unit` points to, with the unit it stands in. -/
def resolveReference (containing? : Nat → m (Option CompileUnit)) (unit : CompileUnit) :
    AttributeValue → m (Option (CompileUnit × Nat))
  | .unitReference offset => pure ((unit.indexAtUnitOffset? offset).map fun index => (unit, index))
  | .sectionReference offset =>
      if unit.header.contains offset then
        pure ((unit.indexAtSectionOffset? offset).map fun index => (unit, index))
      else do
        let other? ← containing? offset
        pure (other?.bind fun other =>
          (other.indexAtSectionOffset? offset).map fun index => (other, index))
  | _ => pure none

/-- The qualified name of the first named entry on the chain of declarations, within `hops`
references. -/
def nameWithinHops (containing? : Nat → m (Option CompileUnit)) :
    Nat → CompileUnit → Nat → m (Option String)
  | 0, _, _ => pure none
  | hops + 1, unit, index =>
      match (unit.entries[index]?).bind declaration? with
      | none => pure none
      | some reference => do
          match ← resolveReference containing? unit reference with
          | none => pure none
          | some (target, position) =>
              match (target.entries[position]?).bind (·.name?) with
              | some name => pure (some (target.qualify position name))
              | none => nameWithinHops containing? hops target position

/-- The qualified name of the declaration that an entry refers to. -/
def qualifiedName (containing? : Nat → m (Option CompileUnit)) (unit : CompileUnit) (index : Nat) :
    m (Option String) :=
  nameWithinHops containing? maximumHops unit index

/-- The name of an entry: its own, else that of its declaration, else its linkage name. -/
def functionName (containing? : Nat → m (Option CompileUnit)) (unit : CompileUnit) (index : Nat) :
    m (Option String) :=
  match unit.entries[index]? with
  | none => pure none
  | some entry =>
      match entry.name? with
      | some name => pure (some name)
      | none => do
          match ← unit.qualifiedName containing? index with
          | some name => pure (some name)
          | none => pure (linkageName? entry)

/-- The name of the first subprogram that covers the address, even if it has none. -/
def functionAt [MonadLiftT (Except DecodeError) m] (containing? : Nat → m (Option CompileUnit))
    (unit : CompileUnit) (rangeLists : Bytes) (address : UInt64) : m (Option String) := do
  match ← (monadLift (unit.subprogramAt? rangeLists address) : m (Option Nat)) with
  | none => pure none
  | some index => unit.functionName containing? index

end Names

end Symbolication.CompileUnit
