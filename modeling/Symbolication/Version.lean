/-!
The versions of the debugging format that can be read.
-/

namespace Symbolication

inductive Version where
  | two
  | three
  | four
deriving DecidableEq, Repr

namespace Version

def number : Version → UInt16
  | two => 2
  | three => 3
  | four => 4

def ofNumber? (number : UInt16) : Option Version :=
  if number = 2 then some two
  else if number = 3 then some three
  else if number = 4 then some four
  else none

theorem ofNumber?_number (version : Version) : ofNumber? version.number = some version := by
  cases version <;> rfl

end Version

end Symbolication
