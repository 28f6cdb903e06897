import Symbolication.LinkageName
import Symbolication.LinkageName.Legacy
import Symbolication.LinkageName.V0.Symbol

/-!
Readable forms in the two schemes that are known. A name in one of them is shown as a path, with
what an optimiser has put behind it; any other name is shown as it is.
-/

namespace Symbolication.LinkageName

/-- Splits at the first mark of an optimiser's copy. -/
def splitAtCopyMark? : List Char → Option (List Char × List Char)
  | [] => none
  | '.' :: 'l' :: 'l' :: 'v' :: 'm' :: '.' :: behind => some ([], behind)
  | character :: rest =>
      (splitAtCopyMark? rest).map fun (front, behind) => (character :: front, behind)

/-- Whether a character belongs to the number of a copy. -/
def isCopyDigit (character : Char) : Bool :=
  character.isDigit || ('A' ≤ character && character ≤ 'F') || character = '@'

/-- A name without the number of its copy, if it has one and nothing behind it. -/
def withoutCopyNumber (name : List Char) : List Char :=
  match splitAtCopyMark? name with
  | some (front, behind) => if behind.all isCopyDigit then front else name
  | none => name

/-- Whether the text behind a symbol can be kept: there is none, or it begins with a dot and holds
visible ASCII characters. -/
def isSuffix (suffix : List Char) : Bool :=
  suffix.isEmpty ||
    (suffix.head? = some '.' && suffix.all fun character => '!' ≤ character && character ≤ '~')

def path? (name : List Char) : Option (String × List Char) :=
  match Legacy.parse? name with
  | some (elements, suffix) => some (Legacy.render elements, suffix)
  | none => (V0.parse? name).map fun (symbol, suffix) => (V0.render symbol, suffix)

def readableInSchemes (name : String) : String :=
  let name := withoutCopyNumber name.toList
  match path? name with
  | some (path, suffix) =>
      if isSuffix suffix then path ++ String.ofList suffix else String.ofList name
  | none => String.ofList name

theorem splitAtCopyMark?_eq_none {name : List Char} (original : ¬copyMark.toList <:+: name) :
    splitAtCopyMark? name = none := by
  induction name with
  | nil => rfl
  | cons character rest induction =>
      have original' : ¬copyMark.toList <:+: rest :=
        fun within => original (within.trans (List.suffix_cons character rest).isInfix)
      unfold splitAtCopyMark?
      split
      · contradiction
      · rename_i behind same
        rw [same] at original
        exact absurd ⟨[], behind, rfl⟩ original
      · rename_i same
        cases same
        rw [induction original']
        rfl

theorem Legacy.afterMark?_eq_none {name : List Char}
    (unmarked : ∀ mark ∈ schemeMarks, ¬mark.toList <+: name) : Legacy.afterMark? name = none := by
  unfold Legacy.afterMark?
  split
  · exact absurd ⟨_, rfl⟩ (unmarked "_ZN" (by decide))
  · exact absurd ⟨_, rfl⟩ (unmarked "ZN" (by decide))
  · exact absurd ⟨_, rfl⟩ (unmarked "__ZN" (by decide))
  · rfl

theorem V0.afterMark?_eq_none {name : List Char}
    (unmarked : ∀ mark ∈ schemeMarks, ¬mark.toList <+: name) : V0.afterMark? name = none := by
  unfold V0.afterMark?
  split
  · exact absurd ⟨_, rfl⟩ (unmarked "_R" (by decide))
  · exact absurd ⟨_, rfl⟩ (unmarked "R" (by decide))
  · exact absurd ⟨_, rfl⟩ (unmarked "__R" (by decide))
  · rfl

theorem readableInSchemes_plain {name : String} (plain : IsPlain name) :
    readableInSchemes name = name := by
  have whole : withoutCopyNumber name.toList = name.toList := by
    unfold withoutCopyNumber
    rw [splitAtCopyMark?_eq_none plain.original]
  have noPath : path? name.toList = none := by
    unfold path? Legacy.parse? V0.parse?
    rw [Legacy.afterMark?_eq_none plain.unmarked, V0.afterMark?_eq_none plain.unmarked]
    rfl
  unfold readableInSchemes
  simp only [whole, noPath]
  exact String.ofList_toList

/-- The names that are in one of the two schemes are made readable. -/
@[reducible]
def schemes : LinkageNames where
  readable := readableInSchemes
  readable_plain := readableInSchemes_plain

end Symbolication.LinkageName
