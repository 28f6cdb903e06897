import Symbolication.Bytes

/-!
Operations that stop the program when they are used out of range. A program written with them shows
where it relies on a check made elsewhere; that it never stops there is a statement about it.
-/

namespace Symbolication

/-- An operation used out of range. -/
inductive Trap where
  | slice
  | index
  /-- A copy between lists of different lengths. -/
  | copy
  | division
  | subtraction
  | shift
  /-- A loop that is not over after the rounds it was given. -/
  | rounds
deriving DecidableEq, Repr

abbrev Checked := Except Trap

namespace Checked

variable {α β : Type}

/-- An operation in range is the value that it has. -/
theorem bind_of_ok {operation : Checked α} {value : α} {continuation : α → Checked β}
    (inRange : operation = .ok value) : operation >>= continuation = continuation value := by
  rw [inRange]
  rfl

/-- The items from index `start` up to index `stop`. -/
def slice (items : List α) (start stop : Nat) : Checked (List α) :=
  if start ≤ stop ∧ stop ≤ items.length then .ok ((items.take stop).drop start)
  else .error .slice

theorem slice_eq_ok {items : List α} {start stop : Nat} (ordered : start ≤ stop)
    (inside : stop ≤ items.length) : slice items start stop = .ok ((items.take stop).drop start) :=
  if_pos ⟨ordered, inside⟩

/-- The items from index `start` on. -/
theorem slice_to_end {items : List α} {start : Nat} (inside : start ≤ items.length) :
    slice items start items.length = .ok (items.drop start) := by
  rw [slice_eq_ok inside (Nat.le_refl _), List.take_length]

def item (items : List α) (index : Nat) : Checked α :=
  match items[index]? with
  | some found => .ok found
  | none => .error .index

theorem item_eq_ok {items : List α} {index : Nat} {found : α}
    (there : items[index]? = some found) : item items index = .ok found := by
  unfold item
  rw [there]

/-- The items, for a place that holds exactly `count` of them. -/
def copy (count : Nat) (items : List α) : Checked (List α) :=
  if items.length = count then .ok items else .error .copy

theorem copy_eq_ok {count : Nat} {items : List α} (exact : items.length = count) :
    copy count items = .ok items :=
  if_pos exact

def subtract [LE α] [DecidableLE α] [Sub α] (minuend subtrahend : α) : Checked α :=
  if subtrahend ≤ minuend then .ok (minuend - subtrahend) else .error .subtraction

theorem subtract_eq_ok [LE α] [DecidableLE α] [Sub α] {minuend subtrahend : α}
    (enough : subtrahend ≤ minuend) : subtract minuend subtrahend = .ok (minuend - subtrahend) :=
  if_pos enough

def divide [DecidableEq α] [OfNat α 0] [Div α] (dividend divisor : α) : Checked α :=
  if divisor = 0 then .error .division else .ok (dividend / divisor)

theorem divide_eq_ok [DecidableEq α] [OfNat α 0] [Div α] {dividend divisor : α}
    (nonzero : divisor ≠ 0) : divide dividend divisor = .ok (dividend / divisor) :=
  if_neg nonzero

def remainder [DecidableEq α] [OfNat α 0] [Mod α] (dividend divisor : α) : Checked α :=
  if divisor = 0 then .error .division else .ok (dividend % divisor)

theorem remainder_eq_ok [DecidableEq α] [OfNat α 0] [Mod α] {dividend divisor : α}
    (nonzero : divisor ≠ 0) : remainder dividend divisor = .ok (dividend % divisor) :=
  if_neg nonzero

/-- A program that knows nothing of the state it is run in. -/
def stateless {ε σ : Type} (program : ExceptT ε Checked α) : ExceptT ε (StateT σ Checked) α :=
  ExceptT.mk (StateT.lift program.run)

/-- Shifts by less than the 64 bits that there are. -/
def shiftRight (value : UInt64) (amount : Nat) : Checked UInt64 :=
  if amount < 64 then .ok (value >>> UInt64.ofNat amount) else .error .shift

end Checked

end Symbolication
