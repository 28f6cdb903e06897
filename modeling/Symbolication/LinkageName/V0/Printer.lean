import Symbolication.LinkageName.V0.Reading

/-!
Printing while reading. The printer follows the symbol and writes the readable name as it goes. A
fault is written where it is met; what would be read after it becomes a question mark, so that the
shape of the name remains. The name may not grow beyond a limit.
-/

namespace Symbolication.LinkageName.V0

structure PrinterState where
  /-- Where reading goes on, or the fault that ended it. -/
  place : Except Fault Place
  output : String
  /-- Bytes that may still be written. -/
  budget : Nat
  /-- Lifetimes bound around the present place. -/
  lifetimes : Nat
  /-- Nothing is written and no reference back is followed. -/
  silent : Bool

/-- Why printing leaves what it is in the middle of. -/
inductive Stop where
  /-- The present rule ends early. -/
  | rule
  /-- The name has grown too long. -/
  | tooLong
deriving DecidableEq, Repr

abbrev Printer := ExceptT Stop (StateM PrinterState)

namespace Printer

variable {α : Type}

def write (text : String) : Printer Unit := do
  let state ← get
  if state.silent then pure ()
  else if text.utf8ByteSize ≤ state.budget then
    set { state with
      output := state.output ++ text
      budget := state.budget - text.utf8ByteSize }
  else throw .tooLong

def writeAll : List String → Printer Unit
  | [] => pure ()
  | text :: rest => do
      write text
      writeAll rest

def writeCharacters (characters : List Char) : Printer Unit :=
  writeAll (characters.map String.singleton)

/-- Ends the present rule with a fault. -/
def stopWith (fault : Fault) : Printer α := do
  write fault.message
  modify ({ · with place := .error fault })
  throw .rule

/-- Reads on. After a fault a question mark is written instead and the present rule ends. -/
def read (reading : Reading α) : Printer α := do
  match (← get).place with
  | .error _ => do
      write "?"
      throw .rule
  | .ok place =>
      match reading place with
      | .error fault => stopWith fault
      | .ok (value, next) => do
          modify ({ · with place := .ok next })
          pure value

/-- Passes over a character if it comes next. -/
def eat (character : Char) : Printer Bool := do
  match (← get).place with
  | .error _ => pure false
  | .ok place =>
      match Reading.eat character place with
      | none => pure false
      | some next => do
          modify ({ · with place := .ok next })
          pure true

def isReading : Printer Bool := do
  match (← get).place with
  | .ok _ => pure true
  | .error _ => pure false

/-- A rule whose early end leaves the rule around it going on. -/
def rule (body : Printer Unit) : Printer Unit :=
  tryCatch body fun
    | .rule => pure ()
    | .tooLong => throw .tooLong

def silently (body : Printer Unit) : Printer Unit := do
  let silent := (← get).silent
  modify ({ · with silent := true })
  body
  modify ({ · with silent })

def charactersLeft : Printer Nat := do
  match (← get).place with
  | .ok place => pure place.rest.length
  | .error _ => pure 0

/-- Elements up to the letter `E` or a fault, of which `count` have been printed. Each takes at
least one character, so there are no more than `limit`. -/
def elements (element : Printer Unit) (separator : String) : Nat → Nat → Printer Nat
  | 0, count => pure count
  | limit + 1, count => do
      if !(← isReading) then pure count
      else if ← eat 'E' then pure count
      else
        if count ≠ 0 then write separator
        element
        elements element separator limit (count + 1)

/-- A list of elements; answers how many there are. -/
def list (element : Printer Unit) (separator : String) : Printer Nat := do
  elements element separator ((← charactersLeft) + 1) 0

def identifier : Printer Unit := do
  let name ← read Identifier.read
  writeAll name.pieces

/-- A lifetime by its number: zero is anonymous, and others count outwards from the binder that is
nearest. The outermost is `a`. -/
def lifetime (number : Nat) : Printer Unit := rule do
  let state ← get
  if state.silent then pure ()
  else
    write "'"
    if number = 0 then write "_"
    else if state.lifetimes < number then stopWith .invalid
    else
      let depth := state.lifetimes - number
      if depth < 26 then write (String.singleton (Char.ofNat ('a'.toNat + depth)))
      else
        write "_"
        write (toString depth)

/-- Binds lifetimes one inside the other and writes them. -/
def bindLifetimes (first : Bool) : Nat → Printer Unit
  | 0 => pure ()
  | count + 1 => do
      if !first then write ", "
      modify fun state => { state with lifetimes := state.lifetimes + 1 }
      lifetime 1
      bindLifetimes false count

/-- What may stand behind a binder. Lifetimes are not counted while nothing is written. -/
def binder (body : Printer Unit) : Printer Unit := rule do
  let count ← read (Reading.optionalInteger62 'G')
  if (← get).silent then rule body
  else
    if 0 < count then
      write "for<"
      bindLifetimes true count
      write "> "
    rule body
    modify fun state => { state with lifetimes := state.lifetimes - count }

end Printer

end Symbolication.LinkageName.V0
