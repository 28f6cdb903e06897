import Mathlib.Data.List.Induction
import Mathlib.Data.List.Nodup
import Symbolication.Abbreviation
import Symbolication.Proofs.Decoder.Repetition

/-!
Abbreviation tables as they are written. Declarations with different codes are read back whole,
whether a zero code or the section ends the table; the first one that repeats a code is reported
where it begins.
-/

namespace Symbolication

namespace Abbreviation

/-- Two zeros end a list of attributes, so no attribute may look like them. -/
def IsAttribute (layout : AttributeDeclaration) : Prop :=
  ¬(layout.name.code = 0 ∧ layout.form.code = 0)

instance : DecidablePred IsAttribute := fun _ => inferInstanceAs (Decidable (¬(_ ∧ _)))

def encodeLayout (layout : AttributeDeclaration) : Bytes :=
  Leb128.encodeUnsigned layout.name.code.toNat ++ Leb128.encodeUnsigned layout.form.code.toNat

def encodeContents (declaration : Abbreviation) : Bytes :=
  Leb128.encodeUnsigned declaration.tag.code.toNat ++
    ([if declaration.hasChildren then 1 else 0] ++
      (declaration.attributes.flatMap encodeLayout ++ [0, 0]))

def encode (declaration : Abbreviation) : Bytes :=
  Leb128.encodeUnsigned declaration.code.toNat ++ declaration.encodeContents

variable {cursor : Cursor} {suffix : Bytes}

theorem attributeDeclarations_reads {layouts : List AttributeDeclaration}
    (proper : ∀ layout ∈ layouts, IsAttribute layout) :
    attributeDeclarations.Reads cursor (layouts.flatMap encodeLayout ++ [0, 0]) suffix layouts := by
  apply Decoder.itemsUntil_flatMap_reads
  · intro layout member cursor behind
    apply (Decoder.unsigned_reads layout.name.code).bind
    apply (Decoder.unsigned_reads layout.form.code).bind_last
    rw [if_neg (proper layout member)]
    exact Decoder.pure_reads _
  · intro cursor
    change Decoder.Reads _ cursor ([0] ++ [0]) suffix none
    apply Decoder.unsigned_reads_zero.bind
    apply Decoder.unsigned_reads_zero.bind_last
    exact Decoder.pure_reads none

end Abbreviation

/-- A declaration as it is written. Any byte but zero announces children. -/
structure WrittenAbbreviation where
  code : UInt64
  tag : Tag
  children : UInt8
  attributes : List AttributeDeclaration
deriving DecidableEq, Repr

namespace WrittenAbbreviation

def abbreviation (written : WrittenAbbreviation) : Abbreviation where
  code := written.code
  tag := written.tag
  hasChildren := written.children ≠ 0
  attributes := written.attributes

def encodeContents (written : WrittenAbbreviation) : Bytes :=
  Leb128.encodeUnsigned written.tag.code.toNat ++
    ([written.children] ++ (written.attributes.flatMap Abbreviation.encodeLayout ++ [0, 0]))

def encode (written : WrittenAbbreviation) : Bytes :=
  Leb128.encodeUnsigned written.code.toNat ++ written.encodeContents

/-- A zero code would end the table, and an attribute that looks like the end of the list would end
the list. -/
structure Proper (written : WrittenAbbreviation) : Prop where
  nonzero : written.code ≠ 0
  attributes : ∀ layout ∈ written.attributes, Abbreviation.IsAttribute layout

variable {written : WrittenAbbreviation} {cursor : Cursor} {suffix : Bytes}

theorem decoder_reads (proper : written.Proper) :
    (Abbreviation.decoder written.code).Reads cursor written.encodeContents suffix
      written.abbreviation := by
  apply (Decoder.unsigned_reads written.tag.code).bind
  apply (Decoder.byte_reads written.children).bind
  exact (Abbreviation.attributeDeclarations_reads proper.attributes).bind_last
    (Decoder.pure_reads written.abbreviation)

theorem encode_ne_nil (written : WrittenAbbreviation) : written.encode ≠ [] :=
  List.append_ne_nil_of_left_ne_nil (Leb128.encodeUnsigned_ne_nil _) _

end WrittenAbbreviation

namespace Abbreviation

/-- The declaration in the usual writing, where one announces children. -/
def written (declaration : Abbreviation) : WrittenAbbreviation where
  code := declaration.code
  tag := declaration.tag
  children := if declaration.hasChildren then 1 else 0
  attributes := declaration.attributes

theorem abbreviation_written (declaration : Abbreviation) :
    declaration.written.abbreviation = declaration := by
  cases declaration with
  | mk code tag hasChildren attributes => cases hasChildren <;> rfl

end Abbreviation

namespace AbbreviationTable

def encode (declarations : List Abbreviation) : Bytes :=
  declarations.flatMap Abbreviation.encode ++ [0]

/-- What declarations need to make a table: codes that are different and not zero, and attributes
that do not look like the end of a list. -/
structure Declarable (declarations : List Abbreviation) : Prop where
  codes : (declarations.map (·.code)).Nodup
  nonzero : ∀ declaration ∈ declarations, declaration.code ≠ 0
  proper : ∀ declaration ∈ declarations, ∀ layout ∈ declaration.attributes,
    Abbreviation.IsAttribute layout

variable {table : AbbreviationTable} {written : WrittenAbbreviation}
  {declarations : List WrittenAbbreviation} {cursor : Cursor} {suffix behind : Bytes}

theorem find?_insert (table : AbbreviationTable) (declaration : Abbreviation) (code : UInt64) :
    (table.insert declaration).find? code =
      if declaration.code = code then some declaration else table.find? code := by
  unfold find? insert
  rw [List.find?_cons]
  by_cases same : declaration.code = code <;> simp [same]

theorem find?_code_eq_some {declarations : List Abbreviation} {declaration : Abbreviation}
    (codes : (declarations.map (·.code)).Nodup) (member : declaration ∈ declarations) :
    declarations.find? (·.code = declaration.code) = some declaration := by
  induction declarations with
  | nil => cases member
  | cons first others induction =>
      rw [List.map_cons, List.nodup_cons] at codes
      rcases List.mem_cons.mp member with isFirst | isOther
      · rw [isFirst]
        exact List.find?_cons_of_pos (by simp)
      · have different : first.code ≠ declaration.code := by
          intro same
          rw [same] at codes
          exact codes.1 (List.mem_map_of_mem isOther)
        rw [List.find?_cons_of_neg (by simpa using different)]
        exact induction codes.2 isOther

theorem find?_eq_none_iff {code : UInt64} :
    table.find? code = none ↔ code ∉ table.declarations.map (·.code) := by
  unfold find?
  rw [List.find?_eq_none]
  simp

/-- The table with further declarations, the last one foremost. -/
def learn (table : AbbreviationTable) (declarations : List WrittenAbbreviation) :
    AbbreviationTable :=
  { declarations := (declarations.map (·.abbreviation)).reverse ++ table.declarations }

theorem learn_cons : table.learn (written :: declarations) =
    (table.insert written.abbreviation).learn declarations := by
  simp [learn, insert]

/-- The declarations behind those of a table, and the table that they make it. -/
def declareAll (table : AbbreviationTable) : Decoder AbbreviationTable :=
  .roundsWhileLeft (.located .unsigned) (Decoder.located_consumes Decoder.unsigned_consumes)
    declare table

theorem decoder_eq : AbbreviationTable.decoder = declareAll empty := rfl

/-- A declaration is learned if its code is new, and reported where it begins otherwise. -/
theorem run_declare (proper : written.Proper) (ahead : cursor.rest = written.encode ++ behind) :
    (Decoder.located .unsigned >>= table.declare).run cursor =
      if (table.find? written.code).isSome then
        .error {
          source := cursor.source, offset := cursor.offset
          fault := .duplicateAbbreviation written.code }
      else
        .ok (.again (table.insert written.abbreviation), cursor.after written.encode behind) := by
  have stands : cursor.rest = Leb128.encodeUnsigned written.code.toNat ++
      (written.encodeContents ++ behind) := by
    rw [ahead, WrittenAbbreviation.encode, List.append_assoc]
  have head : (Decoder.located Decoder.unsigned).Reads cursor
      (Leb128.encodeUnsigned written.code.toNat) (written.encodeContents ++ behind)
      (cursor.offset, written.code) :=
    Decoder.located_reads (Decoder.unsigned_reads written.code)
  rw [head.run_bind stands]
  unfold declare
  dsimp only
  rw [if_neg proper.nonzero,
    (WrittenAbbreviation.decoder_reads proper).run_bind (Cursor.rest_after _ _ _),
    Cursor.after_after]
  split <;> rfl

theorem run_declareAll_cons (proper : written.Proper)
    (ahead : cursor.rest = written.encode ++ behind) :
    (declareAll table).run cursor =
      if (table.find? written.code).isSome then
        .error {
          source := cursor.source, offset := cursor.offset
          fault := .duplicateAbbreviation written.code }
      else
        (declareAll (table.insert written.abbreviation)).run
          (cursor.after written.encode behind) := by
  have left : cursor.rest ≠ [] := by
    rw [ahead]
    exact List.append_ne_nil_of_left_ne_nil written.encode_ne_nil behind
  unfold declareAll
  rw [Decoder.run_roundsWhileLeft left, run_declare proper ahead]
  by_cases known : (table.find? written.code).isSome
  · rw [if_pos known, if_pos known]
  · rw [if_neg known, if_neg known]

/-- Declarations with new codes are learned one after the other, whatever stands behind them. -/
theorem run_declareAll (proper : ∀ written ∈ declarations, written.Proper)
    (codes : (declarations.map (·.code)).Nodup)
    (fresh : ∀ written ∈ declarations, table.find? written.code = none)
    (ahead : cursor.rest = declarations.flatMap WrittenAbbreviation.encode ++ behind) :
    (declareAll table).run cursor = (declareAll (table.learn declarations)).run
      (cursor.after (declarations.flatMap WrittenAbbreviation.encode) behind) := by
  induction declarations generalizing table cursor with
  | nil =>
      have stays : cursor.after [] behind = cursor := Cursor.after_nil ahead
      rw [List.flatMap_nil, stays]
      rfl
  | cons written others induction =>
      rw [List.forall_mem_cons] at proper fresh
      rw [List.map_cons, List.nodup_cons] at codes
      rw [List.flatMap_cons, List.append_assoc] at ahead
      have freshOthers : ∀ other ∈ others,
          (table.insert written.abbreviation).find? other.code = none := by
        intro other member
        have different : written.code ≠ other.code := by
          intro same
          exact codes.1 (same ▸ List.mem_map_of_mem member)
        rw [find?_insert]
        exact (if_neg different).trans (fresh.2 other member)
      have unknown : ¬(table.find? written.code).isSome := by simp [fresh.1]
      rw [run_declareAll_cons proper.1 ahead, if_neg unknown,
        induction proper.2 codes.2 freshOthers (Cursor.rest_after _ _ _), Cursor.after_after,
        learn_cons, List.flatMap_cons]

/-- What may stand behind declarations: the end of the section, or a zero code before anything. -/
def ending : Option Bytes → Bytes
  | none => []
  | some behind => [0] ++ behind

theorem run_declareAll_zero (table : AbbreviationTable) (ahead : cursor.rest = [0] ++ behind) :
    (declareAll table).run cursor = .ok (table, cursor.after [0] behind) := by
  have left : cursor.rest ≠ [] := by
    rw [ahead]
    exact List.cons_ne_nil _ _
  have head : (Decoder.located Decoder.unsigned).Reads cursor [0] behind (cursor.offset, 0) :=
    Decoder.located_reads Decoder.unsigned_reads_zero
  unfold declareAll
  rw [Decoder.run_roundsWhileLeft left, head.run_bind ahead]
  rfl

theorem run_declareAll_ending (table : AbbreviationTable) {behind? : Option Bytes}
    (ahead : cursor.rest = ending behind?) :
    ∃ next, (declareAll table).run cursor = .ok (table, next) := by
  cases behind? with
  | none => exact ⟨cursor, Decoder.run_roundsWhileLeft_nil ahead⟩
  | some behind => exact ⟨cursor.after [0] behind, run_declareAll_zero table ahead⟩

theorem decoder_reads {declarations : List Abbreviation} (declarable : Declarable declarations) :
    AbbreviationTable.decoder.Reads cursor (encode declarations) suffix
      { declarations := declarations.reverse } := by
  intro ahead
  have proper : ∀ written ∈ declarations.map Abbreviation.written, written.Proper := by
    rw [List.forall_mem_map]
    exact fun declaration member =>
      ⟨declarable.nonzero declaration member, declarable.proper declaration member⟩
  have codes : ((declarations.map Abbreviation.written).map (·.code)).Nodup := by
    rw [List.map_map]
    exact declarable.codes
  have same : declarations.flatMap Abbreviation.encode =
      (declarations.map Abbreviation.written).flatMap WrittenAbbreviation.encode := by
    rw [List.flatMap_map]
    rfl
  have learned : empty.learn (declarations.map Abbreviation.written) =
      { declarations := declarations.reverse } := by
    have back : (·.abbreviation) ∘ Abbreviation.written = id :=
      funext Abbreviation.abbreviation_written
    unfold learn empty
    rw [List.map_map, back, List.map_id, List.append_nil]
  unfold encode at ahead ⊢
  rw [List.append_assoc, same] at ahead
  rw [decoder_eq, run_declareAll proper codes (fun _ _ => rfl) ahead,
    run_declareAll_zero _ (Cursor.rest_after _ _ _), learned, Cursor.after_after, same]

theorem find?_learn_empty (codes : (declarations.map (·.code)).Nodup)
    (member : written ∈ declarations) :
    (empty.learn declarations).find? written.code = some written.abbreviation := by
  have codes' : ((empty.learn declarations).declarations.map (·.code)).Nodup := by
    unfold learn empty
    rw [List.append_nil, List.map_reverse, List.nodup_reverse, List.map_map]
    exact codes
  have member' : written.abbreviation ∈ (empty.learn declarations).declarations := by
    unfold learn empty
    rw [List.append_nil, List.mem_reverse]
    exact List.mem_map_of_mem member
  exact find?_code_eq_some codes' member'

theorem find?_learn_empty_eq_none {code : UInt64} (unknown : code ∉ declarations.map (·.code)) :
    (empty.learn declarations).find? code = none := by
  rw [find?_eq_none_iff]
  simpa [learn, empty, WrittenAbbreviation.abbreviation] using unknown

/-- Of declarations with a repeated code there is a first one that repeats a code before it. -/
theorem exists_first_repeated (repeated : ¬(declarations.map (·.code)).Nodup) :
    ∃ first written others, declarations = first ++ written :: others ∧
      (first.map (·.code)).Nodup ∧ written.code ∈ first.map (·.code) := by
  induction declarations using List.reverseRecOn with
  | nil => exact absurd List.nodup_nil repeated
  | append_singleton front last induction =>
      by_cases codes : (front.map (·.code)).Nodup
      · refine ⟨front, last, [], rfl, codes, ?_⟩
        by_contra fresh
        refine repeated ?_
        rw [List.map_append, List.nodup_append]
        refine ⟨codes, List.nodup_singleton _, ?_⟩
        intro code member other isLast same
        rw [List.map_singleton, List.mem_singleton] at isLast
        exact fresh (isLast ▸ same ▸ member)
      · obtain ⟨first, written, others, split, distinct, repeats⟩ := induction codes
        exact ⟨first, written, others ++ [last], by simp [split], distinct, repeats⟩

theorem decode_behind (before bytes : Bytes) : decode (before ++ bytes) before.length =
    (·.1) <$> (declareAll empty).run (.startingAt .abbreviations before.length bytes) := by
  have inside : before.length ≤ (before ++ bytes).length := by simp
  unfold decode
  rw [Decoder.runAt_of_le inside, List.drop_left, decoder_eq]

theorem decode_ending (proper : ∀ written ∈ declarations, written.Proper)
    (codes : (declarations.map (·.code)).Nodup) (before : Bytes) (behind? : Option Bytes) :
    decode (before ++ (declarations.flatMap WrittenAbbreviation.encode ++ ending behind?))
      before.length = .ok (empty.learn declarations) := by
  rw [decode_behind, run_declareAll proper codes (fun _ _ => rfl) rfl]
  obtain ⟨next, ends⟩ := run_declareAll_ending (empty.learn declarations) (Cursor.rest_after
    (.startingAt .abbreviations before.length _) _ (ending behind?))
  rw [ends]
  rfl

theorem decode_repeated {first : List WrittenAbbreviation}
    (proper : ∀ other ∈ first, other.Proper) (properLast : written.Proper)
    (codes : (first.map (·.code)).Nodup) (repeats : written.code ∈ first.map (·.code))
    (before behind : Bytes) :
    decode (before ++ (first.flatMap WrittenAbbreviation.encode ++ (written.encode ++ behind)))
      before.length = .error {
        source := .abbreviations
        offset := before.length + (first.flatMap WrittenAbbreviation.encode).length
        fault := .duplicateAbbreviation written.code } := by
  obtain ⟨other, member, same⟩ := List.mem_map.mp repeats
  have known : ((empty.learn first).find? written.code).isSome := by
    rw [← same, find?_learn_empty codes member]
    rfl
  rw [decode_behind, run_declareAll proper codes (fun _ _ => rfl) rfl,
    run_declareAll_cons properLast (Cursor.rest_after _ _ _), if_pos known, Cursor.offset_after]
  rfl

/-- Declarations that are written one behind the other, somewhere in the section, make a table if
their codes are different: it holds each of them under its code and nothing else, whether the
section or a zero code ends it. Otherwise the first declaration that repeats a code is reported
where it begins, whatever stands behind it. -/
theorem declarations_read_back (proper : ∀ written ∈ declarations, written.Proper)
    (before : Bytes) :
    ((declarations.map (·.code)).Nodup → ∀ behind?, ∃ table,
      decode (before ++ (declarations.flatMap WrittenAbbreviation.encode ++ ending behind?))
        before.length = .ok table ∧
      table.size = declarations.length ∧
      (∀ written ∈ declarations, table.find? written.code = some written.abbreviation) ∧
      ∀ code ∉ declarations.map (·.code), table.find? code = none) ∧
    (¬(declarations.map (·.code)).Nodup → ∃ first written others,
      declarations = first ++ written :: others ∧ (first.map (·.code)).Nodup ∧
      written.code ∈ first.map (·.code) ∧
      ∀ behind, decode (before ++
          (first.flatMap WrittenAbbreviation.encode ++ (written.encode ++ behind)))
        before.length = .error {
          source := .abbreviations
          offset := before.length + (first.flatMap WrittenAbbreviation.encode).length
          fault := .duplicateAbbreviation written.code }) := by
  constructor
  · intro codes behind?
    have size : (empty.learn declarations).size = declarations.length := by
      simp [learn, empty, AbbreviationTable.size]
    exact ⟨_, decode_ending proper codes before behind?, size,
      fun written member => find?_learn_empty codes member,
      fun code unknown => find?_learn_empty_eq_none unknown⟩
  · intro repeated
    obtain ⟨first, written, others, split, distinct, repeats⟩ := exists_first_repeated repeated
    rw [split, List.forall_mem_append, List.forall_mem_cons] at proper
    exact ⟨first, written, others, split, distinct, repeats,
      decode_repeated proper.1 proper.2.1 distinct repeats before⟩

/-- Codes, tag and attribute are none of the known ones, one half of each attribute is zero, and the
children are announced by an unusual byte. -/
def vendorDeclarations : List WrittenAbbreviation := [
  { code := 300, tag := ⟨0x4109⟩, children := 7
    attributes := [{ name := ⟨0⟩, form := ⟨8⟩ }, { name := ⟨0x2116⟩, form := ⟨0⟩ }] },
  { code := 2, tag := .subprogram, children := 0, attributes := [] }]

theorem declarations_read_back_vendor :
    (∃ table,
      decode ([9] ++ (vendorDeclarations.flatMap WrittenAbbreviation.encode ++ [0, 5, 5])) 1 =
        .ok table ∧
      table.size = 2 ∧
      table.find? 300 = some {
        code := 300, tag := ⟨0x4109⟩, hasChildren := true
        attributes := [{ name := ⟨0⟩, form := ⟨8⟩ }, { name := ⟨0x2116⟩, form := ⟨0⟩ }] } ∧
      table.find? 3 = none) ∧
    ∃ first written others,
      vendorDeclarations ++ vendorDeclarations = first ++ written :: others ∧
      written.code ∈ first.map (·.code) ∧
      ∀ behind, decode ([9] ++
          (first.flatMap WrittenAbbreviation.encode ++ (written.encode ++ behind))) 1 = .error {
        source := .abbreviations
        offset := 1 + (first.flatMap WrittenAbbreviation.encode).length
        fault := .duplicateAbbreviation written.code } := by
  have proper : ∀ written ∈ vendorDeclarations, written.Proper := by
    intro written member
    simp only [vendorDeclarations, List.mem_cons, List.not_mem_nil, or_false] at member
    rcases member with rfl | rfl <;> exact ⟨by decide, by decide⟩
  have twice : ∀ written ∈ vendorDeclarations ++ vendorDeclarations, written.Proper :=
    List.forall_mem_append.mpr ⟨proper, proper⟩
  obtain ⟨table, decodes, size, found, unknown⟩ :=
    (declarations_read_back proper [9]).1 (by decide) (some [5, 5])
  obtain ⟨first, written, others, split, _, repeats, reported⟩ :=
    (declarations_read_back twice [9]).2 (by decide)
  exact ⟨⟨table, decodes, size, found _ List.mem_cons_self, unknown 3 (by decide)⟩,
    first, written, others, split, repeats, reported⟩

example : decode [9, 3, 46, 0, 0, 0, 3, 52, 0, 0, 0] 1 =
    .error { source := .abbreviations, offset := 6, fault := .duplicateAbbreviation 3 } := by
  decide +kernel

end AbbreviationTable

end Symbolication
