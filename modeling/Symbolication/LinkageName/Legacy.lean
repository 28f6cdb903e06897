import Symbolication.LinkageName.Limit
import Symbolication.Text.Number

/-!
The older scheme of linkage names: after a mark come the elements of a path, each with its length in
front, up to the letter `E`. Inside an element dots and dollar signs stand for what linkers do not
allow in a name.
-/

namespace Symbolication.LinkageName.Legacy

/-- The characters behind the mark of the scheme. Linkers may drop or add an underscore. -/
def afterMark? : List Char → Option (List Char)
  | '_' :: 'Z' :: 'N' :: rest => some rest
  | 'Z' :: 'N' :: rest => some rest
  | '_' :: '_' :: 'Z' :: 'N' :: rest => some rest
  | _ => none

def length? (characters : List Char) : Option (Nat × List Char) :=
  let digits := characters.takeWhile Char.isDigit
  if digits.isEmpty then none
  else
    (Text.digitsValue? 10 0 digits).map fun length => (length, characters.dropWhile Char.isDigit)

theorem length?_shortens {characters rest : List Char} {length : Nat}
    (found : length? characters = some (length, rest)) : rest.length < characters.length := by
  simp only [length?] at found
  split at found
  · contradiction
  · rename_i some_digits
    have parts := congrArg List.length
      (List.takeWhile_append_dropWhile (p := Char.isDigit) (l := characters))
    rw [List.length_append] at parts
    have positive : 0 < (characters.takeWhile Char.isDigit).length := by
      rw [List.length_pos_iff]
      simpa using some_digits
    simp only [Option.map_eq_some_iff, Prod.mk.injEq] at found
    obtain ⟨_, _, _, rfl⟩ := found
    omega

/-- The elements up to the letter `E`, and what follows it. -/
def elements? (characters : List Char) : Option (List (List Char) × List Char) :=
  match characters with
  | [] => none
  | 'E' :: suffix => some ([], suffix)
  | first :: others =>
      match _found : length? (first :: others) with
      | none => none
      | some (length, rest) =>
          if length ≤ rest.length then
            (elements? (rest.drop length)).map fun (elements, suffix) =>
              (rest.take length :: elements, suffix)
          else none
termination_by characters.length
decreasing_by
  have shorter := length?_shortens _found
  simp only [List.length_cons, List.length_drop] at shorter ⊢
  omega

def parse? (name : List Char) : Option (List (List Char) × List Char) := do
  let rest ← afterMark? name
  if rest.all (·.toNat < 128) then elements? rest else none

/-- Whether an element only tells symbols of one path apart. -/
def isHash : List Char → Bool
  | 'h' :: digits => digits.all fun digit => (Text.digitValue? 16 digit).isSome
  | _ => false

/-- The character that a name between dollar signs stands for. A number in lower-case hexadecimal
digits stands for its character unless that controls a terminal. -/
def dollarCharacter? (name : List Char) : Option Char :=
  match name with
  | ['S', 'P'] => some '@'
  | ['B', 'P'] => some '*'
  | ['R', 'F'] => some '&'
  | ['L', 'T'] => some '<'
  | ['G', 'T'] => some '>'
  | ['L', 'P'] => some '('
  | ['R', 'P'] => some ')'
  | ['C'] => some ','
  | 'u' :: digits =>
      if digits.isEmpty || digits.any Char.isUpper then none
      else
        match Text.digitsValue? 16 0 digits with
        | none => none
        | some code =>
            if code < 0x20 ∨ (0x7f ≤ code ∧ code < 0xa0) ∨ ¬ code.isValidChar then none
            else some (Char.ofNat code)
  | _ => none

/-- Whether a character stands for itself. -/
def isOrdinary (character : Char) : Bool := character ≠ '$' && character ≠ '.'

/-- An element with its dots and dollar names replaced, in the texts that it is written in. Two dots
are a path separator; from the first dollar sign that begins no known name the rest stands as it
is. -/
def unescape (characters : List Char) : List String :=
  match characters with
  | [] => []
  | '.' :: '.' :: rest => "::" :: unescape rest
  | '.' :: rest => "." :: unescape rest
  | '$' :: rest =>
      match _found : rest.dropWhile (· ≠ '$') with
      | [] => [String.ofList ('$' :: rest)]
      | _ :: behind =>
          match dollarCharacter? (rest.takeWhile (· ≠ '$')) with
          | some character => String.singleton character :: unescape behind
          | none => [String.ofList ('$' :: rest)]
  | first :: rest =>
      String.ofList (first :: rest.takeWhile isOrdinary) :: unescape (rest.dropWhile isOrdinary)
termination_by characters.length
decreasing_by
  · simp only [List.length_cons]
    omega
  · simp only [List.length_cons]
    omega
  · have shorter := (List.dropWhile_suffix (l := rest) (· ≠ '$')).length_le
    rw [_found] at shorter
    simp only [List.length_cons] at shorter ⊢
    omega
  · have shorter := (List.dropWhile_suffix (l := rest) isOrdinary).length_le
    simp only [List.length_cons]
    omega

/-- An element as it is shown. An underscore in front of a dollar sign only keeps the element from
beginning with the sign. -/
def showElement : List Char → List String
  | '_' :: '$' :: rest => unescape ('$' :: rest)
  | characters => unescape characters

def render (elements : List (List Char)) : String :=
  let shown :=
    if elements.getLast?.any isHash then elements.dropLast else elements
  joinWithin maximumLength (List.intercalate ["::"] (shown.map showElement))

end Symbolication.LinkageName.Legacy
