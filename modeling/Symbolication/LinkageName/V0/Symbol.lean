import Symbolication.LinkageName.Limit
import Symbolication.LinkageName.V0.Rules

/-!
Symbols of the v0 scheme: a mark, a path, and perhaps a second path for the library that the code
was made in. A symbol is checked silently first, which follows no reference back; faults behind such
a reference show up in the readable name.
-/

namespace Symbolication.LinkageName.V0

/-- The characters behind the mark of the scheme. Linkers may drop or add an underscore. -/
def afterMark? : List Char → Option (List Char)
  | '_' :: 'R' :: first :: rest => some (first :: rest)
  | 'R' :: first :: rest => some (first :: rest)
  | '_' :: '_' :: 'R' :: first :: rest => some (first :: rest)
  | _ => none

def maximumLevels : Nat := 500

def printPath (symbol : List Char) (place : Place) (silent inValue : Bool) :
    Except Stop Bool × PrinterState :=
  (Rules.print symbol maximumLevels (.path inValue)).run.run
    { place := .ok place, output := "", budget := maximumLength, lifetimes := 0, silent }

/-- The place behind a path, if there is a path. -/
def passPath? (symbol : List Char) (place : Place) : Option Place :=
  (printPath symbol place true false).2.place.toOption

/-- Whether a path can begin with what comes next. -/
def beginsPath (characters : List Char) : Bool := characters.head?.any Char.isUpper

def parse? (name : List Char) : Option (List Char × List Char) := do
  let symbol ← afterMark? name
  if beginsPath symbol && symbol.all (·.toNat < 128) then
    let place ← passPath? symbol { position := 0, rest := symbol }
    let place ← if beginsPath place.rest then passPath? symbol place else some place
    some (symbol, place.rest)
  else none

def render (symbol : List Char) : String :=
  match printPath symbol { position := 0, rest := symbol } false true with
  | (.error .tooLong, state) => state.output ++ lengthNote
  | (_, state) => state.output

end Symbolication.LinkageName.V0
