import Mathlib.Tactic.Ring
import Symbolication.Proofs.Decoder.Repetition
import Symbolication.RangeList

/-!
Range lists as any bytes hold them. The bytes are pairs of words, one behind the other: the first
pair of zeros ends the list, and where there is none the list is cut short at the last whole word.
What a range is relative to is said by the last pair in front of it that selects a base.
-/

namespace Symbolication

theorem Width.toNat_allOnes (width : Width) : width.allOnes.toNat = 256 ^ width.bytes - 1 := by
  cases width <;> decide

theorem Width.toNat_ofNat (width : Width) {number : Nat} (fits : number < 256 ^ width.bytes) :
    (UInt64.ofNat number).toNat = number := by
  have room : 256 ^ width.bytes ≤ 2 ^ 64 := by cases width <;> decide
  exact UInt64.toNat_ofNat_of_lt' (Nat.lt_of_lt_of_le fits room)

namespace RangeList

namespace Pair

/-- The pair that ends a list. -/
def zeros : Pair := { first := 0, second := 0 }

/-- The first word has all its bits set. -/
def Selects (width : Width) (pair : Pair) : Prop := pair.first.toNat = 256 ^ width.bytes - 1

instance (width : Width) (pair : Pair) : Decidable (pair.Selects width) :=
  inferInstanceAs (Decidable (_ = _))

theorem selects_iff {width : Width} {pair : Pair} :
    pair.Selects width ↔ pair.first = width.allOnes := by
  rw [← UInt64.toNat_inj, width.toNat_allOnes]
  rfl

structure Fits (width : Width) (pair : Pair) : Prop where
  first : pair.first.toNat < 256 ^ width.bytes
  second : pair.second.toNat < 256 ^ width.bytes

def encode (width : Width) (pair : Pair) : Bytes :=
  Bytes.ofNumber width.bytes pair.first.toNat ++ Bytes.ofNumber width.bytes pair.second.toNat

@[simp] theorem length_encode (width : Width) (pair : Pair) :
    (pair.encode width).length = 2 * width.bytes := by
  simp [encode, Nat.two_mul]

theorem zeros_fits (width : Width) : zeros.Fits width := by
  have positive : 0 < 256 ^ width.bytes := Nat.pow_pos (by decide)
  exact ⟨positive, positive⟩

end Pair

/-- What a list is written for. -/
inductive Item where
  /-- The addresses are relative to the base in force. -/
  | range (start stop : UInt64)
  | selection (base : UInt64)
deriving DecidableEq, Repr

namespace Item

/-- The pair that is written for an item. -/
def toPair (width : Width) : Item → Pair
  | range start stop => { first := start, second := stop }
  | selection base => { first := width.allOnes, second := base }

/-- Whether there is room for the addresses, and the item looks neither like a selection that it is
not nor like the end of the list. -/
def Fits (width : Width) : Item → Prop
  | range start stop =>
      start.toNat < 256 ^ width.bytes - 1 ∧ stop.toNat < 256 ^ width.bytes ∧ ¬(start = 0 ∧ stop = 0)
  | selection base => base.toNat < 256 ^ width.bytes

/-- The items one after the other, and the pair of zeros. -/
def encode (width : Width) (items : List Item) : Bytes :=
  items.flatMap (fun item => (item.toPair width).encode width) ++ Pair.zeros.encode width

/-- The ranges that items mean when `base` is in force before them. -/
def ranges : UInt64 → List Item → List AddressRange
  | _, [] => []
  | base, range start stop :: items =>
      { start := base + start, stop := base + stop } :: ranges base items
  | _, selection base :: items => ranges base items

end Item

variable {width : Width} {pair : Pair} {listed others : List Pair} {bytes tail suffix : Bytes}
  {cursor : Cursor} {base : UInt64}

/-- The word that stands at a place. -/
def wordAt (width : Width) (bytes : Bytes) (place : Nat) : UInt64 :=
  .ofNat (Bytes.littleEndian ((bytes.drop place).take width.bytes))

/-- The pairs of words that the bytes hold, as far as they are whole. -/
def wholePairs (width : Width) (bytes : Bytes) : List Pair :=
  (List.range (bytes.length / (2 * width.bytes))).map fun index => {
    first := wordAt width bytes (2 * index * width.bytes)
    second := wordAt width bytes ((2 * index + 1) * width.bytes) }

variable (bytes suffix) in
theorem wordAt_append {value : UInt64} (fits : value.toNat < 256 ^ width.bytes) :
    wordAt width (bytes ++ (Bytes.ofNumber width.bytes value.toNat ++ suffix)) bytes.length =
      value := by
  have taken : (Bytes.ofNumber width.bytes value.toNat ++ suffix).take width.bytes =
      Bytes.ofNumber width.bytes value.toNat :=
    List.take_left' (Bytes.length_ofNumber _ _)
  unfold wordAt
  rw [List.drop_left, taken, Bytes.littleEndian_ofNumber fits, UInt64.ofNat_toNat]

theorem wholePairs_of_short (short : bytes.length < 2 * width.bytes) :
    wholePairs width bytes = [] := by
  unfold wholePairs
  rw [Nat.div_eq_of_lt short]
  rfl

theorem wholePairs_encode_append (fits : pair.Fits width) :
    wholePairs width (pair.encode width ++ bytes) = pair :: wholePairs width bytes := by
  have positive : 0 < 2 * width.bytes := Nat.mul_pos (by decide) width.bytes_pos
  have first : wordAt width (pair.encode width ++ bytes) 0 = pair.first := by
    rw [Pair.encode, List.append_assoc]
    exact wordAt_append [] _ fits.first
  have second : wordAt width (pair.encode width ++ bytes) width.bytes = pair.second := by
    have read :=
      wordAt_append (Bytes.ofNumber width.bytes pair.first.toNat) bytes fits.second
    rwa [Bytes.length_ofNumber, ← List.append_assoc] at read
  have behind (place : Nat) : wordAt width (pair.encode width ++ bytes) (2 * width.bytes + place) =
      wordAt width bytes place := by
    unfold wordAt
    rw [← pair.length_encode width, List.drop_length_add_append]
  unfold wholePairs
  rw [List.length_append, Pair.length_encode, Nat.add_div_left _ positive,
    List.range_succ_eq_map, List.map_cons, List.map_map]
  congr 1
  · simp only [Nat.mul_zero, Nat.zero_mul, Nat.zero_add, Nat.one_mul, first, second]
  · apply List.map_congr_left
    intro index _
    have firstPlace : 2 * (index + 1) * width.bytes =
        2 * width.bytes + 2 * index * width.bytes := by
      ring
    have secondPlace : (2 * (index + 1) + 1) * width.bytes =
        2 * width.bytes + (2 * index + 1) * width.bytes := by
      ring
    simp only [Function.comp_apply, Nat.succ_eq_add_one, firstPlace, secondPlace, behind]

theorem exists_word (long : width.bytes ≤ bytes.length) :
    ∃ (value : UInt64) (others : Bytes), bytes = Bytes.ofNumber width.bytes value.toNat ++ others ∧
      value.toNat < 256 ^ width.bytes := by
  have length : (bytes.take width.bytes).length = width.bytes := List.length_take_of_le long
  have small := Bytes.littleEndian_lt (bytes.take width.bytes)
  have digits := Bytes.ofNumber_littleEndian (bytes.take width.bytes)
  rw [length] at small digits
  refine ⟨.ofNat (Bytes.littleEndian (bytes.take width.bytes)), bytes.drop width.bytes, ?_, ?_⟩
  · rw [width.toNat_ofNat small, digits, List.take_append_drop]
  · rwa [width.toNat_ofNat small]

/-- Bytes with room for a pair begin with one. -/
theorem exists_pair (long : 2 * width.bytes ≤ bytes.length) :
    ∃ (pair : Pair) (others : Bytes), bytes = pair.encode width ++ others ∧ pair.Fits width := by
  obtain ⟨first, behind, rfl, firstFits⟩ :=
    exists_word (show width.bytes ≤ bytes.length by omega)
  rw [List.length_append, Bytes.length_ofNumber] at long
  obtain ⟨second, others, rfl, secondFits⟩ :=
    exists_word (show width.bytes ≤ behind.length by omega)
  exact ⟨{ first, second }, others, (List.append_assoc _ _ _).symm, firstFits, secondFits⟩

/-- The bytes are their whole pairs and less than one more. -/
theorem exists_tail (width : Width) (bytes : Bytes) :
    ∃ tail : Bytes, bytes = (wholePairs width bytes).flatMap (Pair.encode width) ++ tail ∧
      tail.length < 2 * width.bytes ∧ ∀ pair ∈ wholePairs width bytes, pair.Fits width := by
  induction length : bytes.length using Nat.strongRecOn generalizing bytes with
  | ind length induction =>
      subst length
      rcases Nat.lt_or_ge bytes.length (2 * width.bytes) with short | long
      · rw [wholePairs_of_short short]
        exact ⟨bytes, rfl, short, fun _ member => (nomatch member)⟩
      · have positive := width.bytes_pos
        obtain ⟨pair, others, rfl, fits⟩ := exists_pair long
        have shorter : others.length < (pair.encode width ++ others).length := by
          rw [List.length_append, Pair.length_encode]
          omega
        obtain ⟨tail, split, short, fitsOthers⟩ := induction _ shorter others rfl
        rw [wholePairs_encode_append fits]
        refine ⟨tail, ?_, short, List.forall_mem_cons.mpr ⟨fits, fitsOthers⟩⟩
        rw [List.flatMap_cons, List.append_assoc, ← split]

/-! What the decoder makes of them. -/

/-- One round of a list: a pair, or none at the end. -/
def pair? (width : Width) : Decoder (Option Pair) := do
  let first ← Decoder.word width
  let second ← Decoder.word width
  pure (if first = 0 ∧ second = 0 then none else some { first, second })

theorem pair?_consumes {value : Pair} {next : Cursor}
    (outcome : (pair? width).run cursor = .ok (some value, next)) : next.left < cursor.left :=
  (Decoder.word_consumes width).bind _ _ _ _ outcome

theorem pairs_eq (width : Width) : pairs width = .items (pair? width) pair?_consumes := rfl

theorem pair?_reads (fits : pair.Fits width) :
    (pair? width).Reads cursor (pair.encode width) suffix
      (if pair = .zeros then none else some pair) := by
  have same : (pair = .zeros) = (pair.first = 0 ∧ pair.second = 0) := by
    cases pair
    exact Pair.mk.injEq _ _ _ _
  apply (Decoder.word_reads width fits.first).bind
  apply (Decoder.word_reads width fits.second).bind_last
  simp only [same]
  exact Decoder.pure_reads _

theorem pairs_read (fits : ∀ pair ∈ listed, pair.Fits width) (unended : .zeros ∉ listed) :
    (pairs width).Reads cursor
      (listed.flatMap (Pair.encode width) ++ Pair.zeros.encode width) suffix listed := by
  apply Decoder.itemsUntil_flatMap_reads
  · intro pair member cursor behind
    have different : pair ≠ .zeros := fun same => unended (same ▸ member)
    rw [← if_neg different (c := pair = .zeros) (t := none) (e := some pair)]
    exact pair?_reads (fits pair member)
  · exact fun cursor => pair?_reads (Pair.zeros_fits width)

theorem run_pair?_of_short (short : cursor.left < 2 * width.bytes) :
    (pair? width).run cursor = .error {
      source := cursor.source
      offset := cursor.offset + width.bytes * (cursor.left / width.bytes)
      fault := .unexpectedEnd } := by
  unfold pair?
  rcases Nat.lt_or_ge cursor.left width.bytes with few | enough
  · rw [Decoder.run_bind, Decoder.run_word_of_left_lt few, Nat.div_eq_of_lt few, Nat.mul_zero]
    rfl
  · obtain ⟨first, others, ahead, fits⟩ :=
      exists_word (show width.bytes ≤ cursor.rest.length from enough)
    have left : cursor.left = width.bytes + others.length := by
      rw [Cursor.left, ahead, List.length_append, Bytes.length_ofNumber]
    have fewer : (cursor.after (Bytes.ofNumber width.bytes first.toNat) others).left <
        width.bytes := by
      rw [Cursor.left_after]
      omega
    have one : cursor.left / width.bytes = 1 := Nat.div_eq_of_lt_le (by omega) (by omega)
    rw [(Decoder.word_reads width fits).run_bind ahead, Decoder.run_bind,
      Decoder.run_word_of_left_lt fewer, one, Nat.mul_one]
    simp only [Cursor.error, Cursor.offset_after, Bytes.length_ofNumber]
    rfl

/-- Without a pair of zeros the bytes end too early, at the first word that is not whole. -/
theorem run_pairs_of_unended (fits : ∀ pair ∈ listed, pair.Fits width) (unended : .zeros ∉ listed)
    (short : tail.length < 2 * width.bytes)
    (ahead : cursor.rest = listed.flatMap (Pair.encode width) ++ tail) :
    (pairs width).run cursor = .error {
      source := cursor.source
      offset := cursor.offset + width.bytes * (cursor.left / width.bytes)
      fault := .unexpectedEnd } := by
  rw [pairs_eq]
  induction listed generalizing cursor with
  | nil =>
      have few : cursor.left < 2 * width.bytes := by rwa [Cursor.left, ahead]
      rw [Decoder.run_items, run_pair?_of_short few]
  | cons pair others induction =>
      rw [List.forall_mem_cons] at fits
      rw [List.mem_cons, not_or] at unended
      rw [List.flatMap_cons, List.append_assoc] at ahead
      have behind := induction fits.2 unended.2 (Cursor.rest_after cursor (pair.encode width) _)
      have words : cursor.left / width.bytes =
          2 + (others.flatMap (Pair.encode width) ++ tail).length / width.bytes := by
        rw [Cursor.left, ahead, List.length_append, Pair.length_encode, Nat.add_comm,
          Nat.add_mul_div_right _ _ width.bytes_pos, Nat.add_comm]
      rw [Decoder.run_items, (pair?_reads fits.1).run ahead, if_neg (Ne.symm unended.1)]
      dsimp only
      rw [behind, words, Cursor.left_after, Cursor.offset_after, Pair.length_encode]
      dsimp only [Cursor.after]
      congr 2
      ring

/-! What a list means. -/

/-- The base behind pairs: the one that was selected last, or the one to begin with. -/
def baseBehind (width : Width) (base : UInt64) (earlier : List Pair) : UInt64 :=
  (earlier.filter (·.Selects width)).getLast?.elim base (·.second)

/-- The ranges of the pairs that select no base, each relative to the base behind those before
it. -/
def rangesInForce (width : Width) (base : UInt64) (listed : List Pair) : List AddressRange :=
  (listed.zipIdx.filter fun (pair, _) => ¬pair.Selects width).map fun (pair, index) =>
    let inForce := baseBehind width base (listed.take index)
    { start := inForce + pair.first, stop := inForce + pair.second }

theorem baseBehind_cons : baseBehind width base (pair :: listed) =
    baseBehind width (if pair.Selects width then pair.second else base) listed := by
  unfold baseBehind
  by_cases selects : pair.Selects width
  · simp only [List.filter_cons, selects, decide_true, if_true, List.getLast?_cons]
    cases (listed.filter (·.Selects width)).getLast? <;> rfl
  · simp only [List.filter_cons, selects, decide_false, if_false, Bool.false_eq_true]

theorem rangesInForce_cons : rangesInForce width base (pair :: listed) =
    if pair.Selects width then rangesInForce width pair.second listed
    else { start := base + pair.first, stop := base + pair.second } ::
      rangesInForce width base listed := by
  have others : rangesInForce width (if pair.Selects width then pair.second else base) listed =
      (((listed.zipIdx.map (Prod.map id (· + 1))).filter fun (pair, _) => ¬pair.Selects width).map
        fun (later, index) =>
          let inForce := baseBehind width base ((pair :: listed).take index)
          { start := inForce + later.first, stop := inForce + later.second }) := by
    unfold rangesInForce
    rw [List.filter_map, List.map_map]
    apply List.map_congr_left
    intro later _
    simp only [Function.comp_apply, Prod.map, id_eq, List.take_succ_cons, baseBehind_cons]
  unfold rangesInForce at others ⊢
  rw [List.zipIdx_cons']
  by_cases selects : pair.Selects width
  · rw [if_pos selects] at others ⊢
    rw [others, List.filter_cons_of_neg (by simpa using selects)]
  · rw [if_neg selects] at others ⊢
    rw [others, List.filter_cons_of_pos (by simpa using selects)]
    rfl

theorem ranges_eq (width : Width) (base : UInt64) (listed : List Pair) :
    ranges width base listed = rangesInForce width base listed := by
  induction listed generalizing base with
  | nil => rfl
  | cons pair others induction =>
      rw [ranges, rangesInForce_cons, induction, induction]
      simp only [Pair.selects_iff]

namespace Item

theorem allOnes_lt (width : Width) : width.allOnes.toNat < 256 ^ width.bytes := by
  have positive : 0 < 256 ^ width.bytes := Nat.pow_pos (by decide)
  rw [width.toNat_allOnes]
  omega

theorem toPair_fits {item : Item} (fits : item.Fits width) : (item.toPair width).Fits width := by
  cases item with
  | range start stop => exact ⟨by have := fits.1; simp only [toPair]; omega, fits.2.1⟩
  | selection base => exact ⟨allOnes_lt width, fits⟩

theorem toPair_ne_zeros {item : Item} (fits : item.Fits width) : item.toPair width ≠ .zeros := by
  cases item with
  | range start stop =>
      intro same
      injection same with first second
      exact fits.2.2 ⟨first, second⟩
  | selection base =>
      intro same
      injection same with first second
      cases width <;> exact absurd first (by decide)

theorem ranges_toPair {items : List Item} (fits : ∀ item ∈ items, item.Fits width) :
    RangeList.ranges width base (items.map (toPair width)) = ranges base items := by
  induction items generalizing base with
  | nil => rfl
  | cons item items induction =>
      rw [List.forall_mem_cons] at fits
      rw [List.map_cons, RangeList.ranges]
      cases item with
      | range start stop =>
          have different : (toPair width (range start stop)).first ≠ width.allOnes := by
            intro same
            have small := fits.1.1
            rw [show start = width.allOnes from same, width.toNat_allOnes] at small
            exact Nat.lt_irrefl _ small
          rw [if_neg different, induction fits.2]
          rfl
      | selection base' =>
          have selects : (toPair width (selection base')).first = width.allOnes := rfl
          rw [if_pos selects, induction fits.2]
          rfl

end Item

/-! Lists in the section. -/

theorem decode_eq (rangeLists : Bytes) (offset : Nat) (width : Width) (base : UInt64) :
    decode rangeLists offset width.toUInt8 base =
      ranges width base <$> (pairs width).runAt .rangeLists rangeLists offset := by
  unfold decode
  rw [Width.ofUInt8?_toUInt8]
  rfl

theorem decode_of_ended {rangeLists behind : Bytes} {offset : Nat}
    (inside : offset ≤ rangeLists.length)
    (fits : ∀ pair ∈ listed, pair.Fits width) (unended : .zeros ∉ listed)
    (stands : rangeLists.drop offset =
      listed.flatMap (Pair.encode width) ++ Pair.zeros.encode width ++ behind) :
    decode rangeLists offset width.toUInt8 base = .ok (ranges width base listed) := by
  rw [decode_eq, (pairs_read fits unended).runAt inside stands]
  rfl

theorem decode_of_unended {rangeLists : Bytes} {offset : Nat} (inside : offset ≤ rangeLists.length)
    (unended : .zeros ∉ wholePairs width (rangeLists.drop offset)) :
    decode rangeLists offset width.toUInt8 base = .error {
      source := .rangeLists
      offset := offset + width.bytes * ((rangeLists.length - offset) / width.bytes)
      fault := .unexpectedEnd } := by
  obtain ⟨tail, split, short, fits⟩ := exists_tail width (rangeLists.drop offset)
  have ahead : (Cursor.startingAt .rangeLists offset (rangeLists.drop offset)).rest =
      (wholePairs width (rangeLists.drop offset)).flatMap (Pair.encode width) ++ tail :=
    split
  have failed := run_pairs_of_unended fits unended short ahead
  rw [decode_eq, Decoder.runAt_of_le inside, failed]
  simp only [Cursor.left, Cursor.startingAt, List.length_drop, Cursor.offset, Nat.add_zero]
  rfl

theorem length_flatMap_encode (width : Width) (listed : List Pair) :
    (listed.flatMap (Pair.encode width)).length = listed.length * (2 * width.bytes) := by
  induction listed with
  | nil => rw [List.length_nil, Nat.zero_mul, List.flatMap_nil, List.length_nil]
  | cons pair others induction =>
      rw [List.flatMap_cons, List.length_append, Pair.length_encode, induction, List.length_cons,
        Nat.succ_mul others.length, Nat.add_comm]

/-- The pairs in front of the first pair of zeros, and the bytes that they and the zeros take. -/
theorem exists_ended (ended : .zeros ∈ wholePairs width bytes) :
    ∃ listed behind, (wholePairs width bytes).takeWhile (· ≠ .zeros) = listed ∧
      bytes = listed.flatMap (Pair.encode width) ++ Pair.zeros.encode width ++ behind ∧
      (∀ pair ∈ listed, pair.Fits width) ∧ .zeros ∉ listed := by
  obtain ⟨tail, split, _, fits⟩ := exists_tail width bytes
  obtain ⟨listed, others, whole, unended⟩ := List.eq_append_cons_of_mem ended
  have others_ne : ∀ pair ∈ listed, decide (pair ≠ .zeros) = true := by
    intro pair member
    exact decide_eq_true fun same => unended (same ▸ member)
  refine ⟨listed, others.flatMap (Pair.encode width) ++ tail, ?_, ?_, ?_, unended⟩
  · rw [whole, List.takeWhile_append_of_pos others_ne, List.takeWhile_cons_of_neg (by simp),
      List.append_nil]
  · rw [whole, List.flatMap_append, List.flatMap_cons] at split
    rw [split]
    simp only [List.append_assoc]
  · intro pair member
    exact fits pair (whole ▸ List.mem_append_left _ member)

/-- What a range list means, wherever it stands and however wide its words are. If one of the whole
pairs behind the offset holds two zeros, the list is those in front of the first such pair: each
that selects no base gives a range, relative to the base that was selected last before it, and
nothing behind the zeros matters. If none does, the list is cut short at its last whole word. So
items that are written one after the other are read back as what they mean. -/
theorem lists_mean_their_pairs (rangeLists : Bytes) {offset : Nat}
    (inside : offset ≤ rangeLists.length) (width : Width) (base : UInt64) :
    (.zeros ∈ wholePairs width (rangeLists.drop offset) →
      ∃ listed, listed = (wholePairs width (rangeLists.drop offset)).takeWhile (· ≠ .zeros) ∧
        decode rangeLists offset width.toUInt8 base = .ok (rangesInForce width base listed) ∧
        ∀ behind, decode
          (rangeLists.take (offset + (listed.length + 1) * (2 * width.bytes)) ++ behind) offset
          width.toUInt8 base = .ok (rangesInForce width base listed)) ∧
    (.zeros ∉ wholePairs width (rangeLists.drop offset) →
      decode rangeLists offset width.toUInt8 base = .error {
        source := .rangeLists
        offset := offset + width.bytes * ((rangeLists.length - offset) / width.bytes)
        fault := .unexpectedEnd }) ∧
    ∀ items : List Item, (∀ item ∈ items, item.Fits width) → ∀ before behind : Bytes,
      decode (before ++ (Item.encode width items ++ behind)) before.length width.toUInt8 base =
        .ok (Item.ranges base items) := by
  refine ⟨?_, decode_of_unended inside, ?_⟩
  · intro ended
    obtain ⟨listed, others, same, split, fits, unended⟩ := exists_ended ended
    refine ⟨listed, same.symm, ?_, ?_⟩
    · rw [decode_of_ended inside fits unended split, ranges_eq]
    · intro behind
      have size : (listed.flatMap (Pair.encode width) ++ Pair.zeros.encode width).length =
          (listed.length + 1) * (2 * width.bytes) := by
        rw [List.length_append, length_flatMap_encode, Pair.length_encode,
          Nat.succ_mul listed.length]
      have stands : (rangeLists.take (offset + (listed.length + 1) * (2 * width.bytes)) ++
          behind).drop offset =
            listed.flatMap (Pair.encode width) ++ Pair.zeros.encode width ++ behind := by
        rw [List.drop_append_of_le_length (by rw [List.length_take]; omega), List.drop_take,
          Nat.add_sub_cancel_left, split, ← size, List.take_left]
      rw [decode_of_ended (by simp only [List.length_append, List.length_take]; omega) fits unended
        stands, ranges_eq]
  · intro items fits before behind
    have pairs : (Item.encode width items ++ behind) =
        (items.map (Item.toPair width)).flatMap (Pair.encode width) ++ Pair.zeros.encode width ++
          behind := by
      rw [Item.encode, List.flatMap_map]
    have pairsFit : ∀ pair ∈ items.map (Item.toPair width), pair.Fits width := by
      rw [List.forall_mem_map]
      exact fun item member => Item.toPair_fits (fits item member)
    have unended : .zeros ∉ items.map (Item.toPair width) := by
      rintro member
      obtain ⟨item, isItem, same⟩ := List.mem_map.mp member
      exact Item.toPair_ne_zeros (fits item isItem) same
    rw [decode_of_ended (by simp) pairsFit unended (by rw [List.drop_left, pairs]),
      Item.ranges_toPair fits]

/-- A pair with one zero, a selection whose range passes the end of the address space, the end of
the list, and a word that is not whole. -/
def narrowList : Bytes :=
  [9, 0, 0, 5, 0, 0xff, 0xff, 0, 0x90, 0xf0, 0xff, 0, 0, 0, 0, 0, 0, 7]

theorem lists_mean_their_pairs_narrow :
    decode narrowList 1 2 0xfffffffffffffffe = .ok [
        { start := 0xfffffffffffffffe, stop := 3 }, { start := 0x18ff0, stop := 0x9000 }] ∧
      decode (narrowList.take 13) 3 2 0 = .error {
        source := .rangeLists, offset := 13, fault := .unexpectedEnd } ∧
      decode ([9] ++ (Item.encode .one [.selection 7, .range 0 1] ++ [3])) 1 1 0 =
        .ok [{ start := 7, stop := 8 }] := by
  obtain ⟨ended, _⟩ :=
    lists_mean_their_pairs narrowList (show 1 ≤ 18 by decide) .two 0xfffffffffffffffe
  obtain ⟨listed, rfl, decodes, _⟩ := ended (by decide)
  obtain ⟨_, unended, _⟩ :=
    lists_mean_their_pairs (narrowList.take 13) (show 3 ≤ 13 by decide) .two 0
  obtain ⟨_, _, written⟩ := lists_mean_their_pairs [] (Nat.zero_le 0) .one 0
  refine ⟨decodes, unended (by decide), written _ ?_ [9] [3]⟩
  intro item member
  simp only [List.mem_cons, List.not_mem_nil, or_false] at member
  rcases member with rfl | rfl
  · change 7 < 256 ^ 1
    decide
  · exact ⟨by decide, by decide, by decide⟩

end RangeList

end Symbolication
