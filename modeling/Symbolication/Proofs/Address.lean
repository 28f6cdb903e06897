import Mathlib.Data.List.TakeWhile
import Symbolication.DebugImage
import Symbolication.Proofs.Text.Numeral

/-!
The grammar of addresses. White space around an address is ignored; what is left is a decimal
numeral, or a hexadecimal one behind its mark, with at most one plus sign directly before the
digits. Reading accepts exactly the texts of this form whose number fits in 64 bits, so two
spellings of one address are resolved alike, and any other text is refused as it stands.
-/

namespace Symbolication

namespace Text

theorem dropWhile_blanks {blanks others : List Char}
    (blank : ∀ character ∈ blanks, isBlank character)
    (stops : ∀ character ∈ others.head?, ¬isBlank character) :
    (blanks ++ others).dropWhile isBlank = others := by
  rw [List.dropWhile_append_of_pos blank]
  cases others with
  | nil => rfl
  | cons first rest => exact List.dropWhile_cons_of_neg (stops first rfl)

/-- Trimming takes off blanks only. -/
theorem exists_blanks (characters : List Char) :
    ∃ front back, characters = front ++ trim characters ++ back ∧
      (∀ character ∈ front, isBlank character) ∧ ∀ character ∈ back, isBlank character := by
  refine ⟨characters.takeWhile isBlank,
    ((characters.dropWhile isBlank).reverse.takeWhile isBlank).reverse, ?_, ?_, ?_⟩
  · rw [trim, List.append_assoc, ← List.reverse_append, List.takeWhile_append_dropWhile,
      List.reverse_reverse, List.takeWhile_append_dropWhile]
  · exact fun _ => List.mem_takeWhile_imp
  · exact fun _ member => List.mem_takeWhile_imp (List.mem_reverse.mp member)

/-- Trimming takes off all blanks in front of and behind characters that are none. -/
theorem trim_blanks {front body back : List Char} (before : ∀ character ∈ front, isBlank character)
    (behind : ∀ character ∈ back, isBlank character)
    (solid : ∀ character ∈ body, ¬isBlank character) (nonempty : body ≠ []) :
    trim (front ++ body ++ back) = body := by
  have first : ∀ character ∈ (body ++ back).head?, ¬isBlank character := by
    rw [List.head?_append_of_ne_nil _ nonempty]
    exact fun character found => solid character (List.mem_of_mem_head? found)
  have last : ∀ character ∈ body.reverse.head?, ¬isBlank character :=
    fun character found => solid character (List.mem_reverse.mp (List.mem_of_mem_head? found))
  rw [trim, List.append_assoc, dropWhile_blanks before first, List.reverse_append,
    dropWhile_blanks (fun character member => behind character (List.mem_reverse.mp member)) last,
    List.reverse_reverse]

end Text

namespace Address

open Symbolication.Text

/-- At most one plus sign, and a numeral behind it. -/
def IsSignedNumeral (base : Nat) (characters : List Char) (number : Nat) : Prop :=
  ∃ sign digits, (sign = [] ∨ sign = ['+']) ∧ characters = sign ++ digits ∧
    IsNumeral base digits number

/-- An address without white space around it. -/
inductive Writes : List Char → Nat → Prop
  | decimal {characters : List Char} {number : Nat}
      (digits : IsSignedNumeral 10 characters number) : Writes characters number
  | hexadecimal {mark : Char} {characters : List Char} {number : Nat}
      (marks : mark = 'x' ∨ mark = 'X') (digits : IsSignedNumeral 16 characters number) :
      Writes ('0' :: mark :: characters) number

/-- The text writes the number, with any white space around it. -/
def Denotes (text : String) (number : Nat) : Prop :=
  ∃ front body back, text.toList = front ++ body ++ back ∧
    (∀ character ∈ front, isBlank character) ∧ (∀ character ∈ back, isBlank character) ∧
    Writes body number

theorem not_isDigit {character : Char} (other : digitValue? 16 character = none) (digit : Nat) :
    ¬IsDigit character digit := by
  intro writes
  rw [digitValue?_of_isDigit writes (isDigit_lt writes)] at other
  cases other

theorem number?_eq_some_iff {base number : Nat} {characters : List Char} :
    number? base characters = some number ↔ IsSignedNumeral base characters number := by
  have reads (digits : List Char) :
      (if digits.isEmpty then none else digitsValue? base 0 digits) = some number ↔
        IsNumeral base digits number := by
    rw [isNumeral_iff]
    cases digits <;> simp
  unfold number?
  split
  · rename_i digits
    rw [reads]
    constructor
    · exact fun numeral => ⟨['+'], digits, .inr rfl, rfl, numeral⟩
    · rintro ⟨_, _, rfl | rfl, parts, numeral⟩
      · -- Without the sign the plus would have to be a digit.
        rw [List.nil_append] at parts
        rw [← parts] at numeral
        obtain ⟨digit, _, writes⟩ := exists_isDigit_of_mem numeral List.mem_cons_self
        exact absurd writes (not_isDigit (by decide) digit)
      · cases parts
        exact numeral
  · rename_i unsigned
    rw [reads]
    constructor
    · exact fun numeral => ⟨[], characters, .inl rfl, rfl, numeral⟩
    · rintro ⟨_, digits, rfl | rfl, parts, numeral⟩
      · exact parts ▸ numeral
      · exact absurd parts (unsigned digits)

/-- The mark of a hexadecimal numeral is no decimal digit, so it cannot be read as one. -/
theorem not_isSignedNumeral_marked {mark : Char} (marks : mark = 'x' ∨ mark = 'X')
    {base number : Nat} {characters : List Char} :
    ¬IsSignedNumeral base ('0' :: mark :: characters) number := by
  rintro ⟨_, digits, rfl | rfl, parts, numeral⟩
  · rw [List.nil_append] at parts
    rw [← parts] at numeral
    obtain ⟨digit, _, writes⟩ :=
      exists_isDigit_of_mem numeral (List.mem_cons_of_mem _ List.mem_cons_self)
    rcases marks with rfl | rfl <;> exact not_isDigit (by decide) digit writes
  · cases parts

theorem writes_marked_iff {mark : Char} (marks : mark = 'x' ∨ mark = 'X') {number : Nat}
    {characters : List Char} :
    Writes ('0' :: mark :: characters) number ↔ IsSignedNumeral 16 characters number := by
  constructor
  · intro writes
    cases writes with
    | decimal digits => exact absurd digits (not_isSignedNumeral_marked marks)
    | hexadecimal _ digits => exact digits
  · exact .hexadecimal marks

theorem value?_eq_some_iff {characters : List Char} {number : Nat} :
    value? characters = some number ↔ Writes characters number := by
  unfold value?
  split
  · rw [number?_eq_some_iff, writes_marked_iff (.inl rfl)]
  · rw [number?_eq_some_iff, writes_marked_iff (.inr rfl)]
  · rename_i lower upper
    rw [number?_eq_some_iff]
    constructor
    · exact .decimal
    · intro writes
      cases writes with
      | decimal digits => exact digits
      | hexadecimal marks digits =>
          rcases marks with rfl | rfl
          · exact absurd rfl (lower _)
          · exact absurd rfl (upper _)

theorem not_isBlank_of_isDigit {character : Char} {digit : Nat} (writes : IsDigit character digit) :
    ¬isBlank character := by
  have solid : ("0123456789abcdef".toList ++ "0123456789ABCDEF".toList).all (!isBlank ·) := by
    decide
  have member : character ∈ "0123456789abcdef".toList ++ "0123456789ABCDEF".toList := by
    rcases writes with lower | upper
    · exact List.mem_append_left _ (List.mem_of_getElem? lower)
    · exact List.mem_append_right _ (List.mem_of_getElem? upper)
  simpa using List.all_eq_true.mp solid character member

theorem IsSignedNumeral.solid {base number : Nat} {characters : List Char}
    (numeral : IsSignedNumeral base characters number) :
    characters ≠ [] ∧ ∀ character ∈ characters, ¬isBlank character := by
  obtain ⟨sign, digits, signs, rfl, numeral⟩ := numeral
  refine ⟨List.append_ne_nil_of_right_ne_nil sign numeral.1, ?_⟩
  intro character member
  rcases List.mem_append.mp member with inSign | inDigits
  · rcases signs with rfl | rfl
    · cases inSign
    · rw [List.mem_singleton.mp inSign]
      decide
  · obtain ⟨digit, _, writes⟩ := exists_isDigit_of_mem numeral inDigits
    exact not_isBlank_of_isDigit writes

theorem Writes.solid {characters : List Char} {number : Nat} (writes : Writes characters number) :
    characters ≠ [] ∧ ∀ character ∈ characters, ¬isBlank character := by
  cases writes with
  | decimal digits => exact digits.solid
  | hexadecimal marks digits =>
      refine ⟨List.cons_ne_nil _ _, ?_⟩
      rw [List.forall_mem_cons, List.forall_mem_cons]
      refine ⟨by decide, ?_, digits.solid.2⟩
      rcases marks with rfl | rfl <;> decide

theorem value?_trim_eq_some_iff {text : String} {number : Nat} :
    value? (trim text.toList) = some number ↔ Denotes text number := by
  rw [value?_eq_some_iff]
  constructor
  · intro writes
    obtain ⟨front, back, parts, before, behind⟩ := exists_blanks text.toList
    exact ⟨front, trim text.toList, back, parts, before, behind, writes⟩
  · rintro ⟨front, body, back, parts, before, behind, writes⟩
    rw [parts, trim_blanks before behind writes.solid.2 writes.solid.1]
    exact writes

theorem parse?_eq_some_iff {text : String} {value : UInt64} :
    parse? text = some value ↔ Denotes text value.toNat := by
  rw [← value?_trim_eq_some_iff]
  unfold parse?
  rw [Option.map_eq_some_iff]
  constructor
  · rintro ⟨number, found, rfl⟩
    obtain ⟨reads, fits⟩ := Option.filter_eq_some_iff.mp found
    rw [UInt64.toNat_ofNat_of_lt' (of_decide_eq_true fits)]
    exact reads
  · intro reads
    exact ⟨value.toNat, Option.filter_eq_some_iff.mpr ⟨reads, decide_eq_true value.toNat_lt_size⟩,
      UInt64.ofNat_toNat⟩

/-- The address that a text denotes, or the text that denotes none. -/
def parse (text : String) : Except ResolveError UInt64 :=
  match parse? text with
  | some address => .ok address
  | none => .error (.invalidAddress text)

theorem parse_eq_ok_iff {text : String} {value : UInt64} :
    parse text = .ok value ↔ Denotes text value.toNat := by
  rw [← parse?_eq_some_iff]
  unfold parse
  cases parse? text <;> simp

theorem parse_eq_error_iff {text : String} {error : ResolveError} :
    parse text = .error error ↔
      error = .invalidAddress text ∧ ∀ value : UInt64, ¬Denotes text value.toNat := by
  simp only [← parse?_eq_some_iff]
  unfold parse
  cases parse? text <;> simp [eq_comm]

theorem resolveText_eq [LinkageNames] (image : DebugImage) (text : String) :
    image.resolveText text =
      liftExcept (parse text) >>= fun address => (image.resolve address).adapt .decode := by
  unfold DebugImage.resolveText parse
  cases parse? text <;> rfl

/-- A number that is collected in a word digit by digit. -/
def numberInWord? (base : Nat) (characters : List Char) : Option UInt64 :=
  let digits :=
    match characters with
    | '+' :: rest => rest
    | other => other
  if digits.isEmpty then none else collectDigits? base 0 digits

/-- An address that is collected in a word digit by digit. -/
def parseInWord? (text : String) : Option UInt64 :=
  match trim text.toList with
  | '0' :: 'x' :: rest => numberInWord? 16 rest
  | '0' :: 'X' :: rest => numberInWord? 16 rest
  | characters => numberInWord? 10 characters

theorem numberInWord?_eq {base : Nat} (positive : 0 < base) (small : base ≤ 16)
    (characters : List Char) :
    numberInWord? base characters =
      ((number? base characters).filter (· < UInt64.size)).map UInt64.ofNat := by
  have collects (digits : List Char) :
      (if digits.isEmpty then none else collectDigits? base 0 digits) =
        ((if digits.isEmpty then none else digitsValue? base 0 digits).filter
          (· < UInt64.size)).map UInt64.ofNat := by
    rw [collectDigits?_eq positive small]
    split <;> rfl
  exact collects _

theorem parse?_eq_parseInWord? (text : String) : parse? text = parseInWord? text := by
  unfold parse? parseInWord?
  split
  · rename_i marked
    rw [marked, numberInWord?_eq (by decide) (by decide)]
    rfl
  · rename_i marked
    rw [marked, numberInWord?_eq (by decide) (by decide)]
    rfl
  · rename_i lower upper
    have unmarked : value? (trim text.toList) = number? 10 (trim text.toList) := by
      unfold value?
      split
      · exact absurd ‹_› (lower _)
      · exact absurd ‹_› (upper _)
      · rfl
    rw [unmarked, numberInWord?_eq (by decide) (by decide)]

/-- The usual ways to write a number: its decimal digits, or behind a mark its hexadecimal ones with
each letter in either case, after any number of zeros. -/
inductive Spelling (number : Nat) : List Char → Prop
  | decimal (zeros : Nat) : Spelling number (List.replicate zeros '0' ++ Nat.toDigits 10 number)
  | hexadecimal {mark : Char} {letters : List Char} (marks : mark = 'x' ∨ mark = 'X')
      (zeros : Nat) (writes : List.Forall₂ InEitherCase (Nat.toDigits 16 number) letters) :
      Spelling number ('0' :: mark :: (List.replicate zeros '0' ++ letters))

theorem Spelling.writes {number : Nat} {characters : List Char}
    (spelling : Spelling number characters) : Writes characters number := by
  have unsigned {base : Nat} {digits : List Char} (numeral : IsNumeral base digits number) :
      IsSignedNumeral base digits number := ⟨[], digits, .inl rfl, rfl, numeral⟩
  cases spelling with
  | decimal zeros =>
      apply Writes.decimal
      apply unsigned
      apply isNumeral_toDigits (by decide) (by decide)
      exact List.forall₂_same.mpr fun digit _ => .inl rfl
  | hexadecimal marks zeros writes =>
      apply Writes.hexadecimal marks
      apply unsigned
      exact isNumeral_toDigits (by decide) (by decide) number zeros writes

/-- Addresses are read by their grammar. A text is accepted as an address of 64 bits exactly when it
denotes it, and refused as it stands when it denotes none; collecting the digits in a word that must
not overflow accepts the same. Every usual spelling denotes its number, with any white space around
it. So a text is resolved as the address that it denotes, and one that denotes none is a failure
that carries the text and leaves all units as they are. -/
theorem texts_are_read_by_grammar [LinkageNames] :
    (∀ (text : String) (value : UInt64), parse text = .ok value ↔ Denotes text value.toNat) ∧
    (∀ (text : String) (error : ResolveError), parse text = .error error ↔
      error = .invalidAddress text ∧ ∀ value : UInt64, ¬Denotes text value.toNat) ∧
    (∀ text : String, parse? text = parseInWord? text) ∧
    (∀ (number : Nat) (front body back : List Char), (∀ character ∈ front, isBlank character) →
      (∀ character ∈ back, isBlank character) → Spelling number body →
        Denotes (String.ofList (front ++ body ++ back)) number) ∧
    (∀ (image : DebugImage) (text : String) (value : UInt64), Denotes text value.toNat →
      image.resolveText text = (image.resolve value).adapt .decode) ∧
    ∀ (image : DebugImage) (text : String) (cache : UnitCache),
      (∀ value : UInt64, ¬Denotes text value.toNat) →
        (image.resolveText text).run.run cache = (.error (.invalidAddress text), cache) := by
  refine ⟨fun _ _ => parse_eq_ok_iff, fun _ _ => parse_eq_error_iff, parse?_eq_parseInWord?,
    ?_, ?_, ?_⟩
  · intro number front body back before behind spelling
    exact ⟨front, body, back, String.toList_ofList, before, behind, spelling.writes⟩
  · intro image text value denotes
    rw [resolveText_eq, parse_eq_ok_iff.mpr denotes]
    rfl
  · intro image text cache denotesNone
    rw [resolveText_eq, parse_eq_error_iff.mpr ⟨rfl, denotesNone⟩]
    rfl

section Samples

open scoped LinkageNames

/-- A padded address in mixed case with a sign and wide blanks around it, its usual spelling, and a
sign that stands before the mark. -/
theorem texts_are_read_by_grammar_mixed :
    let image : DebugImage := { sections := ⟨[], [], [], [], [], []⟩, index := ⟨[]⟩ }
    image.resolveText "\u2003\t0X+00dEaD\n" = (image.resolve 0xdead).adapt .decode ∧
      Denotes (String.ofList ([' '] ++ "0x0DEAD".toList ++ ['\n'])) 0xdead ∧
      (image.resolveText "+0x10").run.run .empty = (.error (.invalidAddress "+0x10"), .empty) := by
  obtain ⟨accepts, _, _, spells, resolves, refuses⟩ := texts_are_read_by_grammar
  have mixed : parse "\u2003\t0X+00dEaD\n" = .ok 0xdead := rfl
  have misplaced : parse "+0x10" = .error (.invalidAddress "+0x10") := rfl
  have letters : List.Forall₂ InEitherCase (Nat.toDigits 16 0xdead) ['D', 'E', 'A', 'D'] :=
    .cons (.inr rfl) (.cons (.inr rfl) (.cons (.inr rfl) (.cons (.inr rfl) .nil)))
  refine ⟨resolves _ _ _ ((accepts _ _).mp mixed), ?_, ?_⟩
  · exact spells 0xdead [' '] _ ['\n'] (List.forall_mem_singleton.mpr rfl)
      (List.forall_mem_singleton.mpr rfl) (.hexadecimal (.inl rfl) 1 letters)
  · apply refuses
    intro value denotes
    have reads := (accepts _ _).mpr denotes
    rw [misplaced] at reads
    cases reads

end Samples

end Address

end Symbolication
