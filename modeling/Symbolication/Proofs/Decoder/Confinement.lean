import Mathlib.Data.List.Infix
import Symbolication.Decoder.Header
import Symbolication.Decoder.Repetition
import Symbolication.Proofs.Encoding.Leb128

/-!
Where readings fail. A reading that starts in a span of a section complains about that span only:
the place it reports lies there, and an overflow is reported where a number begins that does
overflow. What a reading of another section complains about is left open. Confinement composes like
the readings do, with a condition on the values that are handed on.
-/

namespace Symbolication

/-- A part of a section of entries, lines or the like. -/
structure Span where
  source : DebugSection
  /-- The bytes of the whole section. -/
  bytes : Bytes
  low : Nat
  high : Nat
  high_le : high ≤ bytes.length

namespace Span

/-- The faults that can be found at any place of the section. Some belong to one section only. -/
def Admits (span : Span) : DecodeFault → Prop
  | .offsetOutOfBounds | .integerOverflow => False
  | .unknownAbbreviation _ | .unsupportedForm _ => span.source = .info
  | .duplicateAbbreviation _ => span.source = .abbreviations
  | .invalidLineProgram _ => span.source = .lines
  | _ => True

structure Explains (span : Span) (error : DecodeError) : Prop where
  source : error.source = span.source
  low_le : span.low ≤ error.offset
  le_high : error.offset ≤ span.high
  fault : span.Admits error.fault ∨
    error.fault = .integerOverflow ∧ Leb128.Overflows (span.bytes.drop error.offset)

/-- The cursor's window lies in the span and shows the bytes that stand there. -/
structure Holds (span : Span) (cursor : Cursor) : Prop where
  source : cursor.source = span.source
  low_le : span.low ≤ cursor.offset
  le_high : cursor.stop ≤ span.high
  shows : cursor.rest <+: span.bytes.drop cursor.offset

theorem Holds.offset_le {span : Span} {cursor : Cursor} (holds : span.Holds cursor) :
    cursor.offset ≤ span.high :=
  Nat.le_trans (Nat.le_add_right _ _) holds.le_high

theorem Holds.reaches {span : Span} {earlier later : Cursor} (holds : span.Holds earlier)
    (reaches : earlier.Reaches later) : span.Holds later where
  source := reaches.source_eq.trans holds.source
  low_le := Nat.le_trans holds.low_le reaches.offset_le
  le_high := by
    rw [reaches.stop_eq]
    exact holds.le_high
  shows := by
    obtain ⟨taken, split, stands⟩ := reaches
    have place : later.offset = earlier.offset + taken.length := by
      rw [stands]
      simp only [Cursor.offset, Cursor.after]
      omega
    have shown := holds.shows.drop taken.length
    rw [split, List.drop_left, List.drop_drop, ← place] at shown
    exact shown

theorem Explains.at_cursor {span : Span} {cursor : Cursor} (holds : span.Holds cursor)
    {fault : DecodeFault} (admits : span.Admits fault) : span.Explains (cursor.error fault) :=
  ⟨holds.source, holds.low_le, holds.offset_le, .inl admits⟩

theorem Explains.overflow {span : Span} {cursor : Cursor} (holds : span.Holds cursor)
    (overflows : Leb128.Overflows cursor.rest) :
    span.Explains (cursor.error .integerOverflow) := by
  obtain ⟨behind, shown⟩ := holds.shows
  refine ⟨holds.source, holds.low_le, holds.offset_le, .inr ⟨rfl, ?_⟩⟩
  change Leb128.Overflows (span.bytes.drop cursor.offset)
  rw [← shown]
  exact overflows.append behind

/-- In the span, a success of the reading ensures something of the value, and a failure is explained
by the span or belongs elsewhere. -/
structure Confines {α : Type} (span : Span) (elsewhere : DecodeError → Prop) (ensures : α → Prop)
    (decoder : Decoder α) : Prop where
  success : ∀ {cursor next : Cursor} {value : α}, span.Holds cursor →
    decoder.run cursor = .ok (value, next) → ensures value
  failure : ∀ {cursor : Cursor} {error : DecodeError}, span.Holds cursor →
    decoder.run cursor = .error error → span.Explains error ∨ elsewhere error

/-- Confinement that ensures nothing of the value. -/
abbrev Guards {α : Type} (span : Span) (elsewhere : DecodeError → Prop) (decoder : Decoder α) :
    Prop :=
  span.Confines elsewhere (fun _ => True) decoder

namespace Confines

variable {α β σ γ : Type} {span : Span} {elsewhere : DecodeError → Prop} {decoder : Decoder α}
  {ensures : α → Prop} {ensuresNext : β → Prop}

protected theorem pure {value : α} (holds : ensures value) :
    span.Confines elsewhere ensures (pure value) where
  success := by
    intro cursor next value' _ outcome
    cases outcome
    exact holds
  failure := by
    intro cursor error _ outcome
    cases outcome

protected theorem bind {continuation : α → Decoder β}
    (confines : span.Confines elsewhere ensures decoder)
    (confinesNext : ∀ value, ensures value →
      span.Confines elsewhere ensuresNext (continuation value)) :
    span.Confines elsewhere ensuresNext (decoder >>= continuation) where
  success := by
    intro cursor next value holds outcome
    obtain ⟨middleValue, middle, start, finish⟩ := Decoder.run_bind_eq_ok.mp outcome
    exact (confinesNext middleValue (confines.success holds start)).success
      (holds.reaches (decoder.reaches start)) finish
  failure := by
    intro cursor error holds outcome
    rw [Decoder.run_bind] at outcome
    cases start : decoder.run cursor with
    | error error' =>
        rw [start] at outcome
        cases outcome
        exact confines.failure holds start
    | ok result =>
        obtain ⟨middleValue, middle⟩ := result
        rw [start] at outcome
        exact (confinesNext middleValue (confines.success holds start)).failure
          (holds.reaches (decoder.reaches start)) outcome

theorem guards (confines : span.Confines elsewhere ensures decoder) :
    span.Guards elsewhere decoder where
  success _ _ := trivial
  failure := confines.failure

theorem andThen {continuation : α → Decoder β} (guards : span.Guards elsewhere decoder)
    (confinesNext : ∀ value, span.Confines elsewhere ensuresNext (continuation value)) :
    span.Confines elsewhere ensuresNext (decoder >>= continuation) :=
  guards.bind fun value _ => confinesNext value

protected theorem map (guards : span.Guards elsewhere decoder) (function : α → β) :
    span.Guards elsewhere (function <$> decoder) := by
  rw [← bind_pure_comp]
  exact guards.andThen fun _ => .pure trivial

theorem offset :
    span.Confines elsewhere (fun place => span.low ≤ place ∧ place ≤ span.high)
      Decoder.offset where
  success := by
    intro cursor next place holds outcome
    cases outcome
    exact ⟨holds.low_le, holds.offset_le⟩
  failure := by
    intro cursor error _ outcome
    cases outcome

theorem cursor : span.Confines elsewhere span.Holds Decoder.cursor where
  success := by
    intro cursor next value holds outcome
    cases outcome
    exact holds
  failure := by
    intro cursor error _ outcome
    cases outcome

/-- How far the window reaches is known only from both numbers together. -/
theorem offset_left {continuation : Nat → Nat → Decoder β}
    (confinesNext : ∀ position left, span.low ≤ position → position + left ≤ span.high →
      span.Confines elsewhere ensuresNext (continuation position left)) :
    span.Confines elsewhere ensuresNext
      (Decoder.offset >>= fun position => Decoder.left >>= continuation position) where
  success := fun {cursor} _ _ holds outcome =>
    (confinesNext cursor.offset cursor.left holds.low_le holds.le_high).success holds outcome
  failure := fun {cursor} _ holds outcome =>
    (confinesNext cursor.offset cursor.left holds.low_le holds.le_high).failure holds outcome

theorem isFinished : span.Guards elsewhere Decoder.isFinished where
  success _ _ := trivial
  failure := by
    intro cursor error _ outcome
    cases outcome

theorem failAt {start : Nat} {fault : DecodeFault} (low : span.low ≤ start)
    (high : start ≤ span.high) (admits : span.Admits fault) :
    span.Confines elsewhere ensures (.failAt start fault) where
  success := by
    intro cursor next value _ outcome
    cases outcome
  failure := by
    intro cursor error holds outcome
    cases outcome
    exact .inl ⟨holds.source, low, high, .inl admits⟩

theorem fail {fault : DecodeFault} (admits : span.Admits fault) :
    span.Confines elsewhere ensures (.fail fault) where
  success := by
    intro cursor next value _ outcome
    cases outcome
  failure := by
    intro cursor error holds outcome
    cases outcome
    exact .inl (.at_cursor holds admits)

theorem lift {result : Except DecodeError α} (success : ∀ value, result = .ok value → ensures value)
    (failure : ∀ error, result = .error error → span.Explains error ∨ elsewhere error) :
    span.Confines elsewhere ensures (.lift result) where
  success := by
    intro cursor next value _ outcome
    unfold Decoder.lift at outcome
    cases result with
    | error error => cases outcome
    | ok value' =>
        cases outcome
        exact success _ rfl
  failure := by
    intro cursor error _ outcome
    unfold Decoder.lift at outcome
    cases result with
    | ok value => cases outcome
    | error error' =>
        cases outcome
        exact failure _ rfl

theorem take (count : Nat) : span.Guards elsewhere (.take count) where
  success _ _ := trivial
  failure := by
    intro cursor error holds outcome
    simp only [Decoder.take] at outcome
    split at outcome <;> cases outcome
    exact .inl (.at_cursor holds trivial)

theorem skip (count : Nat) : span.Guards elsewhere (.skip count) := (take count).map _

theorem unsignedBytes (count : Nat) : span.Guards elsewhere (.unsignedBytes count) :=
  (take count).map _

theorem byte : span.Guards elsewhere Decoder.byte := (unsignedBytes 1).map _

theorem signedByte : span.Guards elsewhere Decoder.signedByte := byte.map _

theorem uint16 : span.Guards elsewhere Decoder.uint16 := (unsignedBytes 2).map _

theorem uint32 : span.Guards elsewhere Decoder.uint32 := (unsignedBytes 4).map _

theorem uint64 : span.Guards elsewhere Decoder.uint64 := (unsignedBytes 8).map _

theorem word (width : Width) : span.Guards elsewhere (.word width) :=
  (unsignedBytes width.bytes).map _

theorem address (size : UInt8) : span.Guards elsewhere (.address size) := by
  unfold Decoder.address
  split
  · exact word _
  · exact fail trivial

/-- A number fails where it begins: it ends too early, or it overflows. -/
theorem leb128 {value : Bytes → Except Leb128.Fault α}
    (overflows : ∀ bytes,
      (Leb128.splitEncoding Leb128.maximumLength bytes >>= fun parts => value parts.1) =
        .error .overflow → Leb128.Overflows bytes) :
    span.Guards elsewhere (.leb128 value) where
  success _ _ := trivial
  failure := by
    intro cursor error holds outcome
    simp only [Decoder.leb128] at outcome
    have blamed := overflows cursor.rest
    split at outcome
    · cases outcome
      exact .inl (.at_cursor holds trivial)
    · rename_i split
      cases outcome
      rw [split] at blamed
      exact .inl (.overflow holds (blamed rfl))
    · rename_i encoding suffix split
      rw [split] at blamed
      split at outcome
      · cases outcome
        exact .inl (.at_cursor holds trivial)
      · rename_i means
        cases outcome
        exact .inl (.overflow holds (blamed means))
      · cases outcome

theorem unsigned : span.Guards elsewhere Decoder.unsigned := by
  apply leb128
  intro bytes overflow
  left
  unfold Leb128.decodeUnsigned
  cases split : Leb128.splitEncoding Leb128.maximumLength bytes with
  | error fault =>
      rw [split] at overflow
      cases overflow
      rfl
  | ok parts =>
      rw [split] at overflow
      change Leb128.unsignedValue parts.1 = _ at overflow
      change (Leb128.unsignedValue parts.1 >>= _) = _
      rw [overflow]
      rfl

theorem count (start : Nat) (number : UInt64) :
    span.Guards elsewhere (.count start number) := by
  rw [Decoder.count_eq]
  exact .pure trivial

theorem length : span.Guards elsewhere Decoder.length := by
  rw [Decoder.length_eq]
  exact unsigned.map _

theorem signed : span.Guards elsewhere Decoder.signed := by
  apply leb128
  intro bytes overflow
  right
  unfold Leb128.decodeSigned
  cases split : Leb128.splitEncoding Leb128.maximumLength bytes with
  | error fault =>
      rw [split] at overflow
      cases overflow
      rfl
  | ok parts =>
      rw [split] at overflow
      change Leb128.signedValue parts.1 = _ at overflow
      change (Leb128.signedValue parts.1 >>= _) = _
      rw [overflow]
      rfl

theorem terminated : span.Guards elsewhere Decoder.terminated where
  success _ _ := trivial
  failure := by
    intro cursor error holds outcome
    simp only [Decoder.terminated] at outcome
    split at outcome <;> cases outcome
    exact .inl (.at_cursor holds trivial)

theorem text : span.Guards elsewhere Decoder.text := terminated.map _

theorem located (guards : span.Guards elsewhere decoder) :
    span.Confines elsewhere (fun pair => span.low ≤ pair.1 ∧ pair.1 ≤ span.high)
      decoder.located :=
  offset.bind fun _ place => guards.andThen fun _ => .pure place

/-- A window lies in the span that its bytes are taken from. -/
theorem window (length : Nat) : span.Confines elsewhere span.Holds (.window length) where
  success := by
    intro cursor next window holds outcome
    obtain ⟨_, _, here, inner⟩ := Decoder.run_bind_eq_ok.mp outcome
    cases here
    obtain ⟨bytes, behind, takes, finish⟩ := Decoder.run_bind_eq_ok.mp inner
    cases finish
    clear inner outcome
    simp only [Decoder.take] at takes
    split at takes <;> cases takes
    rename_i suffix split
    have stands := (Bytes.splitExactly?_sound split).1
    have bounded := holds.le_high
    simp only [Cursor.stop, Cursor.left, stands, List.length_append] at bounded
    exact {
      source := holds.source
      low_le := holds.low_le
      le_high := by
        simp only [Cursor.stop, Cursor.left, Cursor.offset] at bounded ⊢
        omega
      shows := (List.prefix_append bytes suffix).trans (stands ▸ holds.shows) }
  failure := by
    intro cursor error holds outcome
    have guards : span.Guards elsewhere (.window length) :=
      Confines.cursor.guards.andThen fun _ => (take length).andThen fun _ => .pure trivial
    exact guards.failure holds outcome

theorem within {window : Cursor} (holds : span.Holds window)
    (confines : span.Confines elsewhere ensures decoder) :
    span.Confines elsewhere ensures (.within window decoder) := by
  apply lift
  · intro value outcome
    cases inner : decoder.run window with
    | error error =>
        rw [inner] at outcome
        cases outcome
    | ok result =>
        rw [inner] at outcome
        cases outcome
        exact confines.success holds inner
  · intro error outcome
    cases inner : decoder.run window with
    | error error' =>
        rw [inner] at outcome
        cases outcome
        exact confines.failure holds inner
    | ok result =>
        rw [inner] at outcome
        cases outcome

theorem initialLength : span.Guards elsewhere Decoder.initialLength := by
  apply (located uint32).bind
  rintro ⟨start, length⟩ ⟨low, high⟩
  dsimp only
  split
  · exact .pure trivial
  · exact .failAt low high trivial

theorem version {start : Nat} (low : span.low ≤ start) (high : start ≤ span.high) :
    span.Guards elsewhere (.version start) := by
  apply uint16.andThen
  intro number
  split
  · exact .pure trivial
  · exact .failAt low high trivial

theorem checkedWidth {start : Nat} (low : span.low ≤ start) (high : start ≤ span.high)
    (size : UInt8) : span.Guards elsewhere (.checkedWidth start size) := by
  unfold Decoder.checkedWidth
  split
  · exact .pure trivial
  · exact .failAt low high trivial

theorem addressWidth : span.Guards elsewhere Decoder.addressWidth :=
  (located byte).bind fun _ place => checkedWidth place.1 place.2 _

theorem segmentWidth : span.Guards elsewhere Decoder.segmentWidth := by
  apply (located byte).bind
  rintro ⟨start, size⟩ ⟨low, high⟩
  dsimp only
  split
  · exact .pure trivial
  · exact (checkedWidth low high size).map some

theorem mapM {reading : γ → Decoder α} (guards : ∀ row, span.Guards elsewhere (reading row))
    (rows : List γ) : span.Guards elsewhere (rows.mapM reading) := by
  induction rows with
  | nil => exact .pure trivial
  | cons row rows induction =>
      rw [List.mapM_cons]
      exact (guards row).andThen fun _ => induction.andThen fun _ => .pure trivial

/-- Rounds that are confined one by one are so as long as they last. -/
theorem rounds {round : σ → Decoder (Decoder.Round σ)}
    (consumes : ∀ {state state' cursor next},
      (round state).run cursor = .ok (.again state', next) → next.left < cursor.left)
    (guards : ∀ state, span.Guards elsewhere (round state)) (state : σ) :
    span.Guards elsewhere (.rounds round consumes state) where
  success _ _ := trivial
  failure := by
    intro cursor error holds outcome
    change Decoder.runRounds round consumes state cursor = _ at outcome
    fun_induction Decoder.runRounds round consumes state cursor with
    | case1 state cursor error' step =>
        cases outcome
        exact (guards state).failure holds step
    | case2 state cursor stop step => cases outcome
    | case3 state cursor state' middle step induction =>
        exact induction (holds.reaches ((round state).reaches step)) outcome

theorem items {item : Decoder (Option α)}
    (consumes : ∀ {value cursor next},
      item.run cursor = .ok (some value, next) → next.left < cursor.left)
    (guards : span.Guards elsewhere item) : span.Guards elsewhere (.items item consumes) :=
  (rounds (Decoder.ofItem_consumes consumes) (fun _ => guards.map _) []).map List.reverse

variable {head : Decoder β} {consumes : head.Consumes}

theorem itemsUntil {body : β → Decoder (Option α)}
    (confinesHead : span.Confines elsewhere ensuresNext head)
    (guardsBody : ∀ value, ensuresNext value → span.Guards elsewhere (body value)) :
    span.Guards elsewhere (.itemsUntil head consumes body) :=
  items (consumes.bind body _ _ _) (confinesHead.bind guardsBody)

theorem itemsWhileLeft {body : β → Decoder (Option α)}
    (confinesHead : span.Confines elsewhere ensuresNext head)
    (guardsBody : ∀ value, ensuresNext value → span.Guards elsewhere (body value)) :
    span.Guards elsewhere (.itemsWhileLeft head consumes body) := by
  apply items (Decoder.itemIfLeft_consumes consumes)
  apply isFinished.andThen
  intro finished
  cases finished with
  | true => exact .pure trivial
  | false => exact confinesHead.bind guardsBody

theorem roundsWhileLeft {body : σ → β → Decoder (Decoder.Round σ)}
    (confinesHead : span.Confines elsewhere ensuresNext head)
    (guardsBody : ∀ state value, ensuresNext value → span.Guards elsewhere (body state value))
    (state : σ) : span.Guards elsewhere (.roundsWhileLeft head consumes body state) := by
  apply rounds (Decoder.roundIfLeft_consumes consumes)
  intro state
  apply isFinished.andThen
  intro finished
  cases finished with
  | true => exact .pure trivial
  | false => exact confinesHead.bind (guardsBody state)

end Confines

/-- A span that begins where a reading starts, in bytes that end before the section does or with
it. -/
def startingAt (source : DebugSection) (bytes : Bytes) (offset stop : Nat)
    (inside : stop ≤ bytes.length) : Span where
  source := source
  bytes := bytes
  low := offset
  high := stop
  high_le := inside

section Started

variable {α : Type} {decoder : Decoder α} {elsewhere : DecodeError → Prop} {ensures : α → Prop}
  {source : DebugSection} {bytes front : Bytes} {offset : Nat}

theorem startingAt_holds (isFront : front <+: bytes) (inside : offset ≤ front.length) :
    (startingAt source bytes offset front.length isFront.length_le).Holds
      { source, origin := offset, position := 0, rest := front.drop offset } where
  source := rfl
  low_le := Nat.le_refl _
  le_high := by
    simp only [Cursor.stop, Cursor.offset, Cursor.left, List.length_drop, startingAt]
    omega
  shows := isFront.drop offset

theorem runAt_success (isFront : front <+: bytes)
    (confines : (startingAt source bytes offset front.length isFront.length_le).Confines elsewhere
      ensures decoder) {value : α} (outcome : decoder.runAt source front offset = .ok value) :
    ensures value := by
  obtain ⟨inside, next, run⟩ := Decoder.runAt_eq_ok.mp outcome
  exact confines.success (startingAt_holds isFront inside) run

/-- A reading started in the front of a section fails because it was to start behind that front, or
in the span from its start on. -/
theorem runAt_failure (isFront : front <+: bytes)
    (confines : (startingAt source bytes offset front.length isFront.length_le).Confines elsewhere
      ensures decoder) {error : DecodeError}
    (outcome : decoder.runAt source front offset = .error error) :
    (front.length < offset ∧ error = { source, offset, fault := .offsetOutOfBounds }) ∨
      (startingAt source bytes offset front.length isFront.length_le).Explains error ∨
        elsewhere error := by
  unfold Decoder.runAt Cursor.startAt at outcome
  by_cases inside : offset ≤ front.length
  · rw [if_pos inside] at outcome
    dsimp only [Bind.bind, Except.bind] at outcome
    right
    cases run : decoder.run
        { source, origin := offset, position := 0, rest := front.drop offset } with
    | error error' =>
        rw [run] at outcome
        cases outcome
        exact confines.failure (startingAt_holds isFront inside) run
    | ok result =>
        rw [run] at outcome
        cases outcome
  · rw [if_neg inside] at outcome
    cases outcome
    exact .inl ⟨Nat.lt_of_not_le inside, rfl⟩

theorem source_of_runAt
    (guards : ∀ span : Span, span.source = source → span.Guards (fun _ => False) decoder)
    {error : DecodeError} (outcome : decoder.runAt source bytes offset = .error error) :
    error.source = source := by
  obtain ⟨_, rfl⟩ | explains | impossible :=
    runAt_failure (List.prefix_refl _) (guards _ rfl) outcome
  · rfl
  · exact explains.source
  · exact impossible.elim

end Started

end Span

end Symbolication
