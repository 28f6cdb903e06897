/-!
Punycode with lower-case digits: characters beyond ASCII are inserted into a run of ASCII
characters, each by a number that tells both which character it is and where it goes.
-/

namespace Symbolication.LinkageName.Punycode

/-- The value of a digit: letters come first. -/
def digitValue? (digit : Char) : Option Nat :=
  if 'a' ≤ digit ∧ digit ≤ 'z' then some (digit.toNat - 'a'.toNat)
  else if '0' ≤ digit ∧ digit ≤ '9' then some (26 + (digit.toNat - '0'.toNat))
  else none

/-- Digits below the threshold of their place end a number. -/
def threshold (place bias : Nat) : Nat := min (max (place - bias) 1) 26

/-- One number of variable length, and the digits behind it. -/
def number? (bias : Nat) : Nat → Nat → List Char → Option (Nat × List Char)
  | _, _, [] => none
  | place, weight, digit :: rest =>
      match digitValue? digit with
      | none => none
      | some value =>
          let bound := threshold place bias
          if value < bound then some (value * weight, rest)
          else
            (number? bias (place + 36) (weight * (36 - bound)) rest).map fun (number, behind) =>
              (value * weight + number, behind)

theorem number?_shortens {bias place weight number : Nat} {digits rest : List Char}
    (found : number? bias place weight digits = some (number, rest)) :
    rest.length < digits.length := by
  induction digits generalizing place weight number with
  | nil => simp [number?] at found
  | cons digit digits induction =>
      simp only [number?] at found
      split at found
      · contradiction
      · split at found
        · cases found
          simp
        · simp only [Option.map_eq_some_iff, Prod.mk.injEq, Prod.exists] at found
          obtain ⟨inner, behind, inner_found, _, rfl⟩ := found
          have shorter := induction inner_found
          simp only [List.length_cons]
          omega

/-- Scales a number down until the next bias can be read off. -/
def scale (delta bias : Nat) : Nat :=
  if 455 < delta then scale (delta / 35) (bias + 36) else bias + 36 * delta / (delta + 38)
termination_by delta
decreasing_by exact Nat.div_lt_self (by omega) (by omega)

/-- The bias after an insertion that made `count` characters. The first number is damped most. -/
def nextBias (delta count damping : Nat) : Nat :=
  let damped := delta / damping
  scale (damped + damped / count) 0

/-- Carries out insertions. The code starts at `code` and grows with every round trip of the insert
position through the text. -/
def insertAll (text : List Char) (position code bias damping : Nat) (digits : List Char) :
    Option (List Char) :=
  match _found : number? bias 36 1 digits with
  | none => none
  | some (delta, rest) =>
      let count := text.length + 1
      let code := code + (position + delta) / count
      let position := (position + delta) % count
      if code.isValidChar then
        let text := text.insertIdx position (Char.ofNat code)
        if rest.isEmpty then some text
        else insertAll text (position + 1) code (nextBias delta count damping) 2 rest
      else none
termination_by digits.length
decreasing_by exact number?_shortens _found

/-- The text that insertions make of a run of ASCII characters. There has to be one. -/
def decode? (ascii digits : List Char) : Option (List Char) :=
  insertAll ascii 0 0x80 72 700 digits

end Symbolication.LinkageName.Punycode
