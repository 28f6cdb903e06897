import Symbolication.LinkageName.Punycode
import Symbolication.Text.Number

/-!
The parts of a symbol in the v0 scheme that are not nested: numbers in bases 10, 16 and
62, identifiers, and places that were passed before. A reading either moves on or says what is
wrong.
-/

namespace Symbolication.LinkageName.V0

structure Place where
  /-- Characters of the symbol in front of the place. -/
  position : Nat
  rest : List Char
deriving DecidableEq, Repr

/-- Why a symbol cannot be read on. -/
inductive Fault where
  | invalid
  /-- Too many levels of paths, types and constants inside each other. -/
  | tooDeep
deriving DecidableEq, Repr

/-- What stands in the readable name where the fault is met first. -/
def Fault.message : Fault → String
  | invalid => "\x7binvalid syntax\x7d"
  | tooDeep => "\x7brecursion limit reached\x7d"

abbrev Reading (α : Type) := Place → Except Fault (α × Place)

namespace Reading

def next : Reading Char := fun place =>
  match place.rest with
  | [] => .error .invalid
  | character :: rest => .ok (character, { position := place.position + 1, rest })

def eat (character : Char) (place : Place) : Option Place :=
  match place.rest with
  | [] => none
  | first :: rest =>
      if first = character then some { position := place.position + 1, rest } else none

def upTo (mark : Char) : Reading (List Char) := fun place =>
  let taken := place.rest.takeWhile (· ≠ mark)
  match place.rest.dropWhile (· ≠ mark) with
  | [] => .error .invalid
  | _ :: rest => .ok (taken, { position := place.position + taken.length + 1, rest })

/-- Lower-case hexadecimal digits up to an underscore. -/
def hexDigits : Reading (List Char) := fun place => do
  let (digits, place) ← upTo '_' place
  if digits.all fun digit => (Text.digitValue? 16 digit).isSome && !digit.isUpper then
    .ok (digits, place)
  else .error .invalid

/-- The value of a digit in base 62: digits, then small letters, then capitals. -/
def digit62? (digit : Char) : Option Nat :=
  if digit.isDigit then some (digit.toNat - '0'.toNat)
  else if digit.isLower then some (10 + (digit.toNat - 'a'.toNat))
  else if digit.isUpper then some (36 + (digit.toNat - 'A'.toNat))
  else none

/-- The digits as one number, the highest first. -/
def value62? : Nat → List Char → Option Nat
  | value, [] => some value
  | value, digit :: rest =>
      match digit62? digit with
      | none => none
      | some number => value62? (value * 62 + number) rest

def checked (number : Nat) (place : Place) : Except Fault (Nat × Place) :=
  if number < UInt64.size then .ok (number, place) else .error .invalid

/-- Base-62 digits up to an underscore. No digits mean zero, so digits count from one. -/
def integer62 : Reading Nat := fun place => do
  let (digits, place) ← upTo '_' place
  if digits.isEmpty then .ok (0, place)
  else
    match value62? 0 digits with
    | none => .error .invalid
    | some number => checked (number + 1) place

/-- A number behind its mark, counted from one; zero without the mark. -/
def optionalInteger62 (mark : Char) : Reading Nat := fun place =>
  match eat mark place with
  | none => .ok (0, place)
  | some place => do
      let (number, place) ← integer62 place
      checked (number + 1) place

/-- What tells things of one name apart. -/
def disambiguator : Reading Nat := optionalInteger62 's'

/-- A capital names a special namespace; a small letter names one that is not shown. -/
def specialNamespace : Reading (Option Char) := fun place => do
  let (letter, place) ← next place
  if letter.isUpper then .ok (some letter, place)
  else if letter.isLower then .ok (none, place)
  else .error .invalid

/-- The place that a reference back names. It lies in front of the reference's own letter, which has
just been passed. -/
def backReference (symbol : List Char) : Reading Place := fun place => do
  let (target, behind) ← integer62 place
  if target < place.position - 1 then
    .ok ({ position := target, rest := symbol.drop target }, behind)
  else .error .invalid

/-- A decimal number without leading zeros. -/
def decimal : Reading Nat := fun place =>
  match place.rest with
  | [] => .error .invalid
  | '0' :: rest => .ok (0, { position := place.position + 1, rest })
  | rest =>
      let digits := rest.takeWhile Char.isDigit
      if digits.isEmpty then .error .invalid
      else
        match Text.digitsValue? 10 0 digits with
        | none => .error .invalid
        | some number =>
            .ok (number,
              { position := place.position + digits.length, rest := rest.dropWhile Char.isDigit })

end Reading

/-- A name in a symbol: ASCII characters, and insertions if there are others. -/
structure Identifier where
  ascii : List Char
  insertions : List Char
deriving DecidableEq, Repr

namespace Identifier

def isEmpty (identifier : Identifier) : Bool :=
  identifier.ascii.isEmpty && identifier.insertions.isEmpty

/-- Splits the characters of an encoded name at the last underscore. -/
def ofEncoded (characters : List Char) : Identifier :=
  let reversed := characters.reverse
  { ascii := ((reversed.dropWhile (· ≠ '_')).drop 1).reverse
    insertions := (reversed.takeWhile (· ≠ '_')).reverse }

/-- A name behind its length. An underscore may separate the two. A name with characters beyond
ASCII has a mark in front and needs at least one insertion. -/
def read : Reading Identifier := fun place => do
  let encoded? := Reading.eat 'u' place
  let (length, place) ← Reading.decimal (encoded?.getD place)
  let place := (Reading.eat '_' place).getD place
  if place.rest.length < length then .error .invalid
  else
    let characters := place.rest.take length
    let behind : Place :=
      { position := place.position + length, rest := place.rest.drop length }
    match encoded? with
    | none => .ok ({ ascii := characters, insertions := [] }, behind)
    | some _ =>
        let identifier := ofEncoded characters
        if identifier.insertions.isEmpty then .error .invalid else .ok (identifier, behind)

def maximumDecoded : Nat := 128

/-- The name in pieces as it is shown. A name that cannot be decoded is shown with its
insertions. -/
def pieces (identifier : Identifier) : List String :=
  if identifier.insertions.isEmpty then [String.ofList identifier.ascii]
  else
    match (Punycode.decode? identifier.ascii identifier.insertions).filter
        (·.length ≤ maximumDecoded) with
    | some characters => characters.map String.singleton
    | none =>
        ["punycode\x7b"] ++
          (if identifier.ascii.isEmpty then [] else [String.ofList identifier.ascii, "-"]) ++
          [String.ofList identifier.insertions, "\x7d"]

end Identifier

end Symbolication.LinkageName.V0
