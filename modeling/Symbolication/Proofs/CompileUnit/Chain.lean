import Mathlib.Order.Bounds.Basic
import Symbolication.Proofs.CompileUnit.Header

/-!
The chain of units. Headers are reached from the beginning of the section, each where the unit
before it ends, so the units lie one behind the other. What is found for a place is settled by the
last header that is not behind it: its unit holds the place, or the chain goes no further, be it at
the end of the section or because the header cannot be read.
-/

namespace Symbolication.UnitHeader

/-- The places where the chain of units comes to a header, or to the end. -/
inductive Reached (info : Bytes) : Nat → Prop
  | start : Reached info 0
  | next {offset : Nat} {header : UnitHeader} :
      Reached info offset → decode info offset = .ok header → Reached info header.stop

/-- The chain does not break off before the end of the section. -/
def Chained (info : Bytes) : Prop :=
  ∀ offset, Reached info offset → offset < info.length →
    ∃ header, decode info offset = .ok header

variable {info : Bytes} {offset place : Nat} {header : UnitHeader}

theorem contains_iff : header.contains place ↔ header.offset ≤ place ∧ place < header.stop := by
  simp [contains]

theorem lt_stop_of_decode (decoded : decode info offset = .ok header) : offset < header.stop := by
  have bounds := (bounds_of_decode decoded).1
  unfold size at bounds
  omega

/-- Units do not overlap: the chain comes to a later place behind the end of the unit. -/
theorem Reached.stop_le {offset later : Nat} {header : UnitHeader} (reached : Reached info offset)
    (reachedLater : Reached info later) (decoded : decode info offset = .ok header)
    (before : offset < later) : header.stop ≤ later := by
  cases reachedLater with
  | start => omega
  | @next previous headerBefore reachedPrevious decodedPrevious =>
      have ends := lt_stop_of_decode decodedPrevious
      -- The step to the later place may begin on either side of the unit. If it begins before the
      -- unit, the two change places, so the induction is on their sum.
      rcases Nat.lt_trichotomy offset previous with less | same | greater
      · have inner := reached.stop_le reachedPrevious decoded less
        omega
      · subst same
        rw [decoded] at decodedPrevious
        cases decodedPrevious
        exact Nat.le_refl _
      · have inner := reachedPrevious.stop_le reached decodedPrevious greater
        omega
termination_by offset + later

/-- A place lies in one unit of the chain only. -/
theorem Reached.unique {other : Nat} {header' : UnitHeader} (reached : Reached info offset)
    (reachedOther : Reached info other) (decoded : decode info offset = .ok header)
    (decodedOther : decode info other = .ok header') (contains : header.contains place)
    (containsOther : header'.contains place) : offset = other := by
  have stands := offset_of_decode decoded
  have standsOther := offset_of_decode decodedOther
  rw [contains_iff] at contains containsOther
  rcases Nat.lt_trichotomy offset other with less | same | greater
  · have apart := reached.stop_le reachedOther decoded less
    omega
  · exact same
  · have apart := reachedOther.stop_le reached decodedOther greater
    omega

/-- The chain does not leave the section. -/
theorem Reached.le_length (reached : Reached info place) : place ≤ info.length := by
  cases reached with
  | start => exact Nat.zero_le _
  | next _ decoded => exact (bounds_of_decode decoded).2

/-- The chain goes no further than a header that cannot be read. -/
theorem Reached.le_of_broken {later : Nat} {error : DecodeError} (reached : Reached info offset)
    (reachedLater : Reached info later) (broken : decode info offset = .error error) :
    later ≤ offset := by
  induction reachedLater with
  | start => exact Nat.zero_le _
  | @next previous header reachedPrevious decodedPrevious before =>
      rcases Nat.lt_or_eq_of_le before with less | same
      · exact reachedPrevious.stop_le reached decodedPrevious less
      · subst same
        rw [broken] at decodedPrevious
        cases decodedPrevious

/-- The last place that the chain comes to and that is not behind the given one. -/
def LastReached (info : Bytes) (place offset : Nat) : Prop :=
  IsGreatest {offset | Reached info offset ∧ offset ≤ place} offset

theorem exists_lastReached (info : Bytes) (place : Nat) :
    ∃ offset, LastReached info place offset := by
  induction place with
  | zero => exact ⟨0, ⟨.start, Nat.le_refl 0⟩, fun _ member => member.2⟩
  | succ place induction =>
      obtain ⟨offset, ⟨reached, before⟩, last⟩ := induction
      by_cases here : Reached info (place + 1)
      · exact ⟨place + 1, ⟨here, Nat.le_refl _⟩, fun _ member => member.2⟩
      · refine ⟨offset, ⟨reached, Nat.le_succ_of_le before⟩, ?_⟩
        rintro other ⟨reachedOther, beforeOther⟩
        apply last
        refine ⟨reachedOther, Nat.le_of_lt_succ (Nat.lt_of_le_of_ne beforeOther ?_)⟩
        rintro rfl
        exact here reachedOther

theorem lastReached_of_contains (reached : Reached info header.offset)
    (decoded : decode info header.offset = .ok header) (contains : header.contains place) :
    LastReached info place header.offset := by
  obtain ⟨before, within⟩ := contains_iff.mp contains
  refine ⟨⟨reached, before⟩, ?_⟩
  rintro other ⟨reachedOther, beforeOther⟩
  apply Nat.le_of_not_lt
  intro behind
  have apart := reached.stop_le reachedOther decoded behind
  omega

theorem lastReached_length (reached : Reached info info.length) (behind : info.length ≤ place) :
    LastReached info place info.length :=
  ⟨⟨reached, behind⟩, fun _ member => member.1.le_length⟩

theorem lastReached_of_broken {error : DecodeError} (reached : Reached info offset)
    (before : offset ≤ place) (broken : decode info offset = .error error) :
    LastReached info place offset :=
  ⟨⟨reached, before⟩, fun _ member => reached.le_of_broken member.1 broken⟩

/-- A header in front of the place holds it if the chain comes to no other one before the place. -/
theorem LastReached.contains (last : LastReached info place offset)
    (decoded : decode info offset = .ok header) : header.contains place := by
  have stands := offset_of_decode decoded
  have longer := lt_stop_of_decode decoded
  obtain ⟨⟨reached, before⟩, greatest⟩ := last
  rw [contains_iff, stands]
  refine ⟨before, Nat.lt_of_not_le fun behind => ?_⟩
  have further := greatest ⟨reached.next decoded, behind⟩
  omega

theorem find?_eq (last : LastReached info place offset) {start : Nat}
    (reachedStart : Reached info start) (before : start ≤ offset) :
    find? info place start =
      if offset < info.length then some <$> decode info offset else .ok none := by
  obtain ⟨⟨reached, inFront⟩, greatest⟩ := last
  fun_induction find? info place start with
  | case1 start inside error outcome =>
      have same := Nat.le_antisymm before (reachedStart.le_of_broken reached outcome)
      subst same
      rw [if_pos inside, outcome]
      rfl
  | case2 start inside header outcome contains =>
      have alone := (lastReached_of_contains (offset_of_decode outcome ▸ reachedStart)
        (offset_of_decode outcome ▸ outcome) contains).2 ⟨reached, inFront⟩
      rw [offset_of_decode outcome] at alone
      have same := Nat.le_antisymm before alone
      subst same
      rw [if_pos inside, outcome]
      rfl
  | case3 start inside header outcome outside induction =>
      have stands := offset_of_decode outcome
      rw [contains_iff, stands] at outside
      have behind : header.stop ≤ place := by omega
      exact induction (reachedStart.next outcome) (greatest ⟨reachedStart.next outcome, behind⟩)
  | case4 start outside =>
      rw [if_neg (by omega)]

/-- The last header in front of the place decides what is found for it. -/
theorem containing?_eq (last : LastReached info place offset) :
    containing? info place =
      if offset < info.length then some <$> decode info offset else .ok none :=
  find?_eq last .start (Nat.zero_le _)

theorem containing?_eq_some_iff :
    containing? info place = .ok (some header) ↔
      Reached info header.offset ∧ decode info header.offset = .ok header ∧
        header.contains place := by
  constructor
  · intro found
    obtain ⟨offset, last⟩ := exists_lastReached info place
    rw [containing?_eq last] at found
    split at found
    · cases decoded : decode info offset with
      | error error =>
          rw [decoded] at found
          cases found
      | ok header' =>
          rw [decoded] at found
          cases found
          have stands := offset_of_decode decoded
          have contains := last.contains decoded
          rw [stands]
          exact ⟨last.1.1, decoded, contains⟩
    · cases found
  · rintro ⟨reached, decoded, contains⟩
    have inside : header.offset < info.length := by
      have bounds := bounds_of_decode decoded
      unfold size at bounds
      omega
    rw [containing?_eq (lastReached_of_contains reached decoded contains), if_pos inside, decoded]
    rfl

theorem containing?_eq_none_iff :
    containing? info place = .ok none ↔ Reached info info.length ∧ info.length ≤ place := by
  constructor
  · intro missed
    obtain ⟨offset, last⟩ := exists_lastReached info place
    rw [containing?_eq last] at missed
    split at missed
    · cases decoded : decode info offset with
      | error error =>
          rw [decoded] at missed
          cases missed
      | ok header =>
          rw [decoded] at missed
          cases missed
    · obtain ⟨⟨reached, before⟩, _⟩ := last
      have ends : offset = info.length := Nat.le_antisymm reached.le_length (by omega)
      rw [ends] at reached before
      exact ⟨reached, before⟩
  · rintro ⟨reached, behind⟩
    rw [containing?_eq (lastReached_length reached behind), if_neg (Nat.lt_irrefl _)]

theorem containing?_eq_error_iff {error : DecodeError} :
    containing? info place = .error error ↔
      ∃ offset, Reached info offset ∧ offset < info.length ∧ offset ≤ place ∧
        decode info offset = .error error := by
  constructor
  · intro failed
    obtain ⟨offset, last⟩ := exists_lastReached info place
    rw [containing?_eq last] at failed
    split at failed
    · rename_i inside
      refine ⟨offset, last.1.1, inside, last.1.2, ?_⟩
      cases decoded : decode info offset with
      | error error' =>
          rw [decoded] at failed
          cases failed
          rfl
      | ok header =>
          rw [decoded] at failed
          cases failed
    · cases failed
  · rintro ⟨offset, reached, inside, before, broken⟩
    rw [containing?_eq (lastReached_of_broken reached before broken), if_pos inside, broken]
    rfl

/-- A place in front of one that the chain comes to lies in a unit, whatever follows. -/
theorem Reached.exists_containing? (reached : Reached info offset) (inFront : place < offset) :
    ∃ header, containing? info place = .ok (some header) := by
  cases found : containing? info place with
  | error error =>
      obtain ⟨brokenAt, reachedBroken, _, before, broken⟩ := containing?_eq_error_iff.mp found
      have last := reachedBroken.le_of_broken reached broken
      omega
  | ok header? =>
      cases header? with
      | none =>
          have behind := (containing?_eq_none_iff.mp found).2
          have inside := reached.le_length
          omega
      | some header => exact ⟨header, rfl⟩

theorem containing?_eq_none (chained : Chained info) (behind : info.length ≤ place) :
    containing? info place = .ok none := by
  obtain ⟨offset, last⟩ := exists_lastReached info place
  rw [containing?_eq last]
  split
  · rename_i inside
    obtain ⟨header, decoded⟩ := chained offset last.1.1 inside
    have ends := bounds_of_decode decoded
    have contains := contains_iff.mp (last.contains decoded)
    omega
  · rfl

/-- The units of the chain cover the section. -/
theorem exists_contains (chained : Chained info) (inside : place < info.length) :
    ∃ offset header, Reached info offset ∧ decode info offset = .ok header ∧
      header.contains place := by
  obtain ⟨offset, last⟩ := exists_lastReached info place
  obtain ⟨reached, before⟩ := last.1
  obtain ⟨header, decoded⟩ := chained offset reached (Nat.lt_of_le_of_lt before inside)
  exact ⟨offset, header, reached, decoded, last.contains decoded⟩

/-- Where the chain stands behind so many units, if it comes that far. -/
def chainPlace? (info : Bytes) : Nat → Option Nat
  | 0 => some 0
  | count + 1 => do
      let offset ← chainPlace? info count
      let header ← (decode info offset).toOption
      pure header.stop

theorem chainPlace?_succ_eq_some {count next : Nat} :
    chainPlace? info (count + 1) = some next ↔
      ∃ offset header, chainPlace? info count = some offset ∧ decode info offset = .ok header ∧
        header.stop = next := by
  have readable : ∀ offset header, (decode info offset).toOption = some header ↔
      decode info offset = .ok header := by
    intro offset header
    cases decode info offset <;> simp [Except.toOption]
  simp only [chainPlace?, Option.bind_eq_bind, Option.bind_eq_some_iff, Option.pure_def,
    Option.some.injEq, readable]
  constructor
  · rintro ⟨offset, reached, header, decoded, ends⟩
    exact ⟨offset, header, reached, decoded, ends⟩
  · rintro ⟨offset, header, reached, decoded, ends⟩
    exact ⟨offset, reached, header, decoded, ends⟩

theorem reached_iff : Reached info offset ↔ ∃ count, chainPlace? info count = some offset := by
  constructor
  · intro reached
    induction reached with
    | start => exact ⟨0, rfl⟩
    | @next offset header _ decoded before =>
        obtain ⟨count, stands⟩ := before
        exact ⟨count + 1, chainPlace?_succ_eq_some.mpr ⟨offset, header, stands, decoded, rfl⟩⟩
  · rintro ⟨count, stands⟩
    induction count generalizing offset with
    | zero =>
        cases stands
        exact .start
    | succ count induction =>
        obtain ⟨previous, header, before, decoded, rfl⟩ := chainPlace?_succ_eq_some.mp stands
        exact (induction before).next decoded

/-- Every unit takes at least its header, so the chain has no more units than the section has room
for. -/
theorem chainPlace?_bounds {count : Nat} (stands : chainPlace? info count = some offset) :
    count * size ≤ offset ∧ offset ≤ info.length := by
  refine ⟨?_, (reached_iff.mpr ⟨count, stands⟩).le_length⟩
  induction count generalizing offset with
  | zero => simp
  | succ count induction =>
      obtain ⟨previous, header, before, decoded, rfl⟩ := chainPlace?_succ_eq_some.mp stands
      rw [Nat.succ_mul]
      exact Nat.le_trans (Nat.add_le_add_right (induction before) size)
        (bounds_of_decode decoded).1

/-- The chain of units tiles the section, whatever bytes it has. Each step goes on by a header at
least and stays in the section, so there are only so many. A place is found in the one unit of the
chain that it lies in; it is missed only where the chain ends with the section and the place lies
behind it; and there is an error only where the chain breaks off, in front of the section's end and
not behind the place, which is the error reported. So a place in front of a broken header is found,
and none in the section is missed. -/
theorem chain_tiles_section (info : Bytes) (place : Nat) :
    (∀ count offset next, chainPlace? info count = some offset →
        chainPlace? info (count + 1) = some next → offset + size ≤ next) ∧
      (∀ count offset, chainPlace? info count = some offset →
        count * size ≤ offset ∧ offset ≤ info.length) ∧
      (∀ header, containing? info place = .ok (some header) ↔
        (∃ count, chainPlace? info count = some header.offset) ∧
          decode info header.offset = .ok header ∧
          header.offset ≤ place ∧ place < header.stop) ∧
      (∀ count offset header count' offset' header',
        chainPlace? info count = some offset → decode info offset = .ok header →
        chainPlace? info count' = some offset' → decode info offset' = .ok header' →
        header.contains place → header'.contains place → header = header') ∧
      (containing? info place = .ok none ↔
        (∃ count, chainPlace? info count = some info.length) ∧ info.length ≤ place) ∧
      (∀ error, containing? info place = .error error ↔
        ∃ count offset, chainPlace? info count = some offset ∧ offset < info.length ∧
          decode info offset = .error error ∧ offset ≤ place) ∧
      (∀ count offset, chainPlace? info count = some offset → place < offset →
        ∃ header, containing? info place = .ok (some header)) ∧
      (place < info.length → containing? info place ≠ .ok none) := by
  refine ⟨?_, fun _ _ => chainPlace?_bounds, ?_, ?_, ?_, ?_, ?_, ?_⟩
  · intro count offset next stands goes
    obtain ⟨previous, header, before, decoded, rfl⟩ := chainPlace?_succ_eq_some.mp goes
    rw [stands] at before
    cases before
    exact (bounds_of_decode decoded).1
  · intro header
    rw [containing?_eq_some_iff, reached_iff, contains_iff]
  · intro count offset header count' offset' header' stands decoded stands' decoded' contains
      contains'
    have same := (reached_iff.mpr ⟨count, stands⟩).unique (reached_iff.mpr ⟨count', stands'⟩)
      decoded decoded' contains contains'
    subst same
    rw [decoded] at decoded'
    cases decoded'
    rfl
  · rw [containing?_eq_none_iff, reached_iff]
  · intro error
    rw [containing?_eq_error_iff]
    constructor
    · rintro ⟨offset, reached, inside, before, broken⟩
      obtain ⟨count, stands⟩ := reached_iff.mp reached
      exact ⟨count, offset, stands, inside, broken, before⟩
    · rintro ⟨count, offset, stands, inside, broken, before⟩
      exact ⟨offset, reached_iff.mpr ⟨count, stands⟩, inside, before, broken⟩
  · intro count offset stands inFront
    exact (reached_iff.mpr ⟨count, stands⟩).exists_containing? inFront
  · intro inside missed
    have behind := (containing?_eq_none_iff.mp missed).2
    omega

end Symbolication.UnitHeader
