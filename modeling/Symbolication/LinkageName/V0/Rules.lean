import Symbolication.LinkageName.V0.Printer
import Symbolication.Text.Quoted
import Symbolication.Text.Utf8

/-!
The grammar of the v0 scheme: paths, types, constants and patterns. Every one of them that stands
inside another is one level down, and so is what a reference back leads to; a symbol has no more
than five hundred levels, which is what the recursion runs on.
-/

namespace Symbolication.LinkageName.V0

inductive Nonterminal where
  /-- A path; generic arguments of a value are set off by a path separator. -/
  | path (inValue : Bool)
  | type
  /-- A constant; outside an expression all but literals stand in braces. -/
  | constant (inValue : Bool)
  | pattern
  /-- The path of a trait object, which may leave its generic arguments open. -/
  | openPath
  /-- What a reference back leads to. -/
  | reference (target : Nonterminal)
deriving DecidableEq, Repr

/-- The rules one level down, if there is such a level. A rule answers whether it has left generic
arguments open. -/
abbrev Below := Option (Nonterminal → Printer Bool)

namespace Rules

open Printer

def descend (below : Below) : Printer (Nonterminal → Printer Bool) :=
  read fun place =>
    match below with
    | some rules => .ok (rules, place)
    | none => .error .tooDeep

/-- Prints a nonterminal that is not an open path. -/
def within (rules : Nonterminal → Printer Bool) (target : Nonterminal) : Printer Unit := do
  let _ ← rules target

/-- A reference back. Its target is read in its own place and level; reading then goes on behind the
reference. -/
def reference (symbol : List Char) (below : Below) (target : Nonterminal) : Printer Bool :=
  tryCatch (do
    let (place, rules) ← read fun place => do
      let (found, place) ← Reading.backReference symbol place
      match below with
      | some rules => .ok ((found, rules), place)
      | none => .error .tooDeep
    let state ← get
    if state.silent then pure false
    else
      set { state with place := .ok place }
      let isOpen ← rules target
      modify ({ · with place := state.place })
      pure isOpen) fun
    | .rule => pure false
    | .tooLong => throw .tooLong

def basicType? : Char → Option String
  | 'b' => some "bool"
  | 'c' => some "char"
  | 'e' => some "str"
  | 'u' => some "()"
  | 'a' => some "i8"
  | 's' => some "i16"
  | 'l' => some "i32"
  | 'x' => some "i64"
  | 'n' => some "i128"
  | 'i' => some "isize"
  | 'h' => some "u8"
  | 't' => some "u16"
  | 'm' => some "u32"
  | 'y' => some "u64"
  | 'o' => some "u128"
  | 'j' => some "usize"
  | 'f' => some "f32"
  | 'd' => some "f64"
  | 'z' => some "!"
  | 'p' => some "_"
  | 'v' => some "..."
  | _ => none

def genericArgument (type constant : Printer Unit) : Printer Unit := rule do
  if ← eat 'L' then
    let number ← read Reading.integer62
    lifetime number
  else if ← eat 'K' then constant
  else type

def genericArguments (rules : Nonterminal → Printer Bool) : Printer Unit := do
  let _ ← list (genericArgument (within rules .type) (within rules (.constant false))) ", "

/-- The last part of a nested path. A special namespace is shown with the number that tells its
members apart. -/
def nestedName (kind : Option Char) : Printer Unit := do
  let number ← read Reading.disambiguator
  let name ← read Identifier.read
  match kind with
  | some letter => do
      write "::\x7b"
      write (if letter = 'C' then "closure" else if letter = 'S' then "shim"
        else String.singleton letter)
      if !name.isEmpty then
        write ":"
        writeAll name.pieces
      write "#"
      write (toString number)
      write "\x7d"
  | none =>
      if !name.isEmpty then
        write "::"
        writeAll name.pieces

/-- An implementation's type and trait. The path of the implementation itself is not shown. -/
def implementation (rules : Nonterminal → Printer Bool) (ownPath withTrait : Bool) :
    Printer Unit := do
  if ownPath then
    let _ ← read Reading.disambiguator
    silently (within rules (.path false))
  write "<"
  within rules .type
  if withTrait then
    write " as "
    within rules (.path false)
  write ">"

def path (below : Below) (inValue : Bool) : Printer Unit := rule do
  let rules ← descend below
  match ← read Reading.next with
  | 'C' => do
      let _ ← read Reading.disambiguator
      identifier
  | 'N' => do
      let kind ← read Reading.specialNamespace
      within rules (.path inValue)
      if !(← isReading) then write "::"
      nestedName kind
  | 'M' => implementation rules true false
  | 'X' => implementation rules true true
  | 'Y' => implementation rules false true
  | 'I' => do
      within rules (.path inValue)
      if inValue then write "::"
      write "<"
      genericArguments rules
      write ">"
  | 'B' => within rules (.reference (.path inValue))
  | _ => stopWith .invalid

/-- The name of a calling convention, with its dashes in place of underscores. -/
def callingConvention (name : List Char) : Printer Unit := do
  let parts := (String.ofList name).splitOn "_"
  write "extern \""
  writeAll (parts.intersperse "-")
  write "\" "

def functionType (rules : Nonterminal → Printer Bool) : Printer Unit := do
  let isUnsafe ← eat 'U'
  let convention? ←
    if ← eat 'K' then
      if ← eat 'C' then pure (some ['C'])
      else
        let name ← read Identifier.read
        if name.ascii.isEmpty || !name.insertions.isEmpty then stopWith .invalid
        else pure (some name.ascii)
    else pure none
  if isUnsafe then write "unsafe "
  match convention? with
  | some name => callingConvention name
  | none => pure ()
  write "fn("
  let _ ← list (within rules .type) ", "
  write ")"
  if !(← eat 'u') then
    write " -> "
    within rules .type

/-- What an associated item of a trait is bound to: a constant behind its mark, or a type. -/
def associatedValue (rules : Nonterminal → Printer Bool) : Printer Unit := do
  if ← eat 'K' then within rules (.constant false) else within rules .type

/-- Associated items of a trait, between the brackets of its generic arguments. -/
def associatedItems (rules : Nonterminal → Printer Bool) : Nat → Bool → Printer Bool
  | 0, isOpen => pure isOpen
  | limit + 1, isOpen => do
      if ← eat 'p' then
        write (if isOpen then ", " else "<")
        identifier
        write " = "
        associatedValue rules
        associatedItems rules limit true
      else pure isOpen

def objectTrait (rules : Nonterminal → Printer Bool) : Printer Unit := rule do
  let isOpen ← rules .openPath
  let isOpen ← associatedItems rules (← charactersLeft) isOpen
  if isOpen then write ">"

def traitObject (rules : Nonterminal → Printer Bool) : Printer Unit := do
  write "dyn "
  binder do
    let _ ← list (objectTrait rules) " + "
  if !(← eat 'L') then stopWith .invalid
  let number ← read Reading.integer62
  if number ≠ 0 then
    write " + "
    lifetime number

/-- A reference type behind its letter. -/
def referenceType (rules : Nonterminal → Printer Bool) (isMutable : Bool) : Printer Unit := do
  write "&"
  if ← eat 'L' then
    let number ← read Reading.integer62
    if number ≠ 0 then
      lifetime number
      write " "
  if isMutable then write "mut "
  within rules .type

/-- Elements in round brackets. A single one has a comma behind it. -/
def tuple (element : Printer Unit) : Printer Unit := do
  write "("
  let count ← list element ", "
  if count = 1 then write ","
  write ")"

/-- A type, perhaps behind the mark of an argument that is spread out. The mark takes no level and
stands at most once. -/
def type (below : Below) : Printer Unit := rule do
  if ← eat 'w' then write "#[splat] "
  let start := (← get).place
  let letter ← read Reading.next
  match basicType? letter with
  | some name => write name
  | none => do
      let rules ← descend below
      match letter with
      | 'R' => referenceType rules false
      | 'Q' => referenceType rules true
      | 'P' => do
          write "*"
          write "const "
          within rules .type
      | 'O' => do
          write "*"
          write "mut "
          within rules .type
      | 'A' => do
          write "["
          within rules .type
          write "; "
          within rules (.constant true)
          write "]"
      | 'S' => do
          write "["
          within rules .type
          write "]"
      | 'T' => tuple (within rules .type)
      | 'F' => binder (functionType rules)
      | 'D' => traitObject rules
      | 'B' => within rules (.reference .type)
      | 'W' => do
          within rules .type
          write " is "
          within rules .pattern
      | _ => do
          -- Any other letter begins a path.
          modify ({ · with place := start })
          within rules (.path false)

/-- The value of hexadecimal digits if it fits in 64 bits. -/
def hexValue? (digits : List Char) : Option Nat :=
  let significant := digits.dropWhile (· = '0')
  if significant.length ≤ 16 then Text.digitsValue? 16 0 significant else none

def hexBytes? : List Char → Option Bytes
  | [] => some []
  | [_] => none
  | high :: low :: rest =>
      match Text.digitsValue? 16 0 [high, low], hexBytes? rest with
      | some byte, some bytes => some (UInt8.ofNat byte :: bytes)
      | _, _ => none

/-- An integer. One of more than 64 bits stays in hexadecimal. -/
def integer : Printer Unit := rule do
  let digits ← read Reading.hexDigits
  match hexValue? digits with
  | some value => write (toString value)
  | none => do
      write "0x"
      write (String.ofList digits)

/-- Characters between quote marks, escaped as in source text. -/
def quotedCharacters (quote : Char) (characters : List Char) : Printer Unit := do
  write (String.singleton quote)
  writeCharacters (characters.flatMap fun character => (Text.escape quote character).toList)
  write (String.singleton quote)

def stringLiteral : Printer Unit := rule do
  let digits ← read Reading.hexDigits
  match (hexBytes? digits).bind Utf8.text? with
  | some text => quotedCharacters '"' text.toList
  | none => stopWith .invalid

def namedField (rules : Nonterminal → Printer Bool) : Printer Unit := rule do
  let _ ← read Reading.disambiguator
  identifier
  write ": "
  within rules (.constant true)

/-- A constant of a structure or of a variant: its path, then its fields. -/
def structureConstant (rules : Nonterminal → Printer Bool) : Printer Unit := do
  within rules (.path true)
  match ← read Reading.next with
  | 'U' => pure ()
  | 'T' => do
      write "("
      let _ ← list (within rules (.constant true)) ", "
      write ")"
  | 'S' => do
      write " \x7b "
      let _ ← list (namedField rules) ", "
      write " \x7d"
  | _ => stopWith .invalid

/-- Constants that are not literals stand in braces outside an expression. -/
def braced (inValue : Bool) (body : Printer Unit) : Printer Unit :=
  if inValue then body
  else do
    write "\x7b"
    body
    write "\x7d"

def referenceConstant (rules : Nonterminal → Printer Bool) (mark : String) : Printer Unit := do
  write "&"
  write mark
  within rules (.constant true)

def constant (below : Below) (inValue : Bool) : Printer Unit := rule do
  let letter ← read Reading.next
  let rules ← descend below
  match letter with
  | 'p' => write "_"
  | 'h' | 't' | 'm' | 'y' | 'o' | 'j' => integer
  | 'a' | 's' | 'l' | 'x' | 'n' | 'i' => do
      if ← eat 'n' then write "-"
      integer
  | 'b' => do
      match hexValue? (← read Reading.hexDigits) with
      | some 0 => write "false"
      | some 1 => write "true"
      | _ => stopWith .invalid
  | 'c' => do
      match (hexValue? (← read Reading.hexDigits)).filter (·.isValidChar) with
      | some code => quotedCharacters '\'' [Char.ofNat code]
      | none => stopWith .invalid
  | 'e' => braced inValue do
      -- A literal has a reference type, so the text itself is what it refers to.
      write "*"
      stringLiteral
  | 'R' => do
      if ← eat 'e' then stringLiteral else braced inValue (referenceConstant rules "")
  | 'Q' => braced inValue (referenceConstant rules "mut ")
  | 'A' => braced inValue do
      write "["
      let _ ← list (within rules (.constant true)) ", "
      write "]"
  | 'T' => braced inValue (tuple (within rules (.constant true)))
  | 'V' => braced inValue (structureConstant rules)
  | 'B' => within rules (.reference (.constant inValue))
  | _ => stopWith .invalid

/-- Alternatives behind the first one, up to the letter `E`. A list that a fault has cut short is a
fault of its own. All but the last two of the rounds take a character, which bounds them by
`limit`. -/
def alternatives (rules : Nonterminal → Printer Bool) : Nat → Printer Unit
  | 0 => pure ()
  | limit + 1 => do
      if ← eat 'E' then pure ()
      else if !(← isReading) then stopWith .invalid
      else
        write " | "
        within rules .pattern
        alternatives rules limit

def pattern (below : Below) : Printer Unit := rule do
  match ← read Reading.next with
  | 'R' => do
      constant below false
      write "..="
      constant below false
  | 'O' => do
      let rules ← descend below
      within rules .pattern
      alternatives rules ((← charactersLeft) + 2)
  | 'N' => write "!null"
  | _ => stopWith .invalid

/-- The path of a trait object. Generic arguments stay open, so that associated types can follow. -/
def openPath (symbol : List Char) (below : Below) : Printer Bool := do
  if ← eat 'B' then reference symbol below .openPath
  else if ← eat 'I' then
    path below false
    write "<"
    let _ ← list (genericArgument (type below) (constant below false)) ", "
    pure true
  else
    path below false
    pure false

/-- One level of the grammar on top of the ones below. -/
def level (symbol : List Char) (below : Below) : Nonterminal → Printer Bool
  | .path inValue => do
      path below inValue
      pure false
  | .type => do
      type below
      pure false
  | .constant inValue => do
      constant below inValue
      pure false
  | .pattern => do
      pattern below
      pure false
  | .openPath => openPath symbol below
  | .reference target => reference symbol below target

/-- The grammar with a number of levels below the present one. -/
def print (symbol : List Char) : Nat → Nonterminal → Printer Bool
  | 0 => level symbol none
  | levels + 1 => level symbol (some (print symbol levels))

end Rules

end Symbolication.LinkageName.V0
