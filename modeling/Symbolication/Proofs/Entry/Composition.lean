import Symbolication.Proofs.CompileUnit.Placement
import Symbolication.Proofs.Entry.Scopes

/-!
Entries in two parts. Bytes that decode to entries may be followed by any bytes, and no entry looks
past its own: the second part decodes, or fails, as it would alone. All that it takes over from the
first part are the scopes left open there, for those of its entries that stand in no scope of their
own.
-/

namespace Symbolication

namespace EntryBody

variable {abbreviations : AbbreviationTable} {context : AttributeContext}

/-- The same entry, further on from the first one. -/
def movedBy (distance : Nat) (entry : EntryBody) : EntryBody :=
  { entry with offset := entry.offset + distance }

theorem decoder_movedBy {first distance start : Nat} (behind : first + distance ≤ start)
    (code : UInt64) :
    decoder abbreviations context first start code =
      movedBy distance <$> decoder abbreviations context (first + distance) start code := by
  have place : start - first = start - (first + distance) + distance := by omega
  unfold decoder
  rw [place]
  split
  · rfl
  · split
    · rfl
    · rw [map_bind]
      rfl

/-- Offsets that count from an earlier place are larger by the distance to it. -/
theorem rowFrom_movedBy {first distance : Nat} {cursor : Cursor}
    (behind : first + distance ≤ cursor.offset) :
    (rowFrom abbreviations context first).run cursor =
      (List.map (movedBy distance) <$>
        rowFrom abbreviations context (first + distance)).run cursor := by
  refine Decoder.run_itemsToEnd_map (movedBy distance) ?_ behind
  intro cursor behind
  rw [map_bind, Decoder.run_bind, Decoder.run_bind]
  cases head : (Decoder.located Decoder.unsigned).run cursor with
  | error error => rfl
  | ok result =>
      obtain ⟨⟨start, code⟩, next⟩ := result
      have place : start = cursor.offset := Decoder.start_of_located head
      dsimp only
      rw [decoder_movedBy (place ▸ behind)]

/-- Bytes behind a row begin a row of their own. -/
theorem rowFrom_append {first : Nat} {cursor other next : Cursor} {entries : List EntryBody}
    {behind : Bytes} (moves : (Relocation.between [] behind).Moves cursor other)
    (outcome : (rowFrom abbreviations context first).run cursor = .ok (entries, next)) :
    (·.1) <$> (rowFrom abbreviations context first).run other =
      (entries ++ ·) <$> (·.1) <$>
        (rowFrom abbreviations context first).run (other.after cursor.rest behind) := by
  have carries : (Relocation.between [] behind).Carries Eq (item abbreviations context first)
      (item abbreviations context first) :=
    item_carries rfl context abbreviations first
  unfold rowFrom at outcome ⊢
  rw [carries.itemsToEnd_append moves outcome, Functor.map_map, Functor.map_map]
  rfl

/-- The second part gives the row that it gives alone, moved behind the first part. -/
theorem value_rowFrom_append {first : Nat} {next : Cursor} {front behind : Bytes}
    {entries : List EntryBody}
    (outcome : (rowFrom abbreviations context first).run (.startingAt .info first front) =
      .ok (entries, next)) :
    (·.1) <$> (rowFrom abbreviations context first).run
        (.startingAt .info first (front ++ behind)) =
      ((entries ++ List.map (movedBy front.length) ·) <$> (·.1) <$>
        (rowFrom abbreviations context first).run (.startingAt .info first behind)).mapError
          (.movedBy front.length) := by
  let second := (Cursor.startingAt .info first (front ++ behind)).after front behind
  have moves : (Relocation.between [] behind).Moves (.startingAt .info first front)
      (.startingAt .info first (front ++ behind)) :=
    ⟨rfl, rfl, rfl, rfl⟩
  have movesBehind : (Relocation.between front []).Moves (.startingAt .info first behind) second :=
    ⟨rfl, rfl, Cursor.offset_after _ _ _, (List.append_nil _).symm⟩
  have starts : first + front.length ≤ second.offset := Nat.le_of_eq movesBehind.offset.symm
  have carries : (Relocation.between front []).Carries Eq
      (rowFrom abbreviations context first)
      (rowFrom abbreviations context (first + front.length)) :=
    rowFrom_carries rfl context rfl abbreviations first
  calc
    (·.1) <$> (rowFrom abbreviations context first).run
          (.startingAt .info first (front ++ behind)) =
        (entries ++ ·) <$> (·.1) <$> (rowFrom abbreviations context first).run second :=
      rowFrom_append moves outcome
    _ = (entries ++ List.map (movedBy front.length) ·) <$> (·.1) <$>
          (rowFrom abbreviations context (first + front.length)).run second := by
      rw [rowFrom_movedBy starts, Decoder.value_map, Functor.map_map]
    _ = ((entries ++ List.map (movedBy front.length) ·) <$> (·.1) <$>
          (rowFrom abbreviations context first).run (.startingAt .info first behind)).mapError
            (.movedBy front.length) := by
      rw [carries.value_eq rfl movesBehind]
      cases (rowFrom abbreviations context first).run (.startingAt .info first behind) <;> rfl

end EntryBody

namespace Entry

/-- The number of null entries that find no scope to close. -/
def unmatched (entries : List Entry) : Nat :=
  entries.countP fun entry => entry.isNull && entry.parent.isNone

/-- An entry put behind `count` others, which take `distance` bytes. Its scope stays its own if it
stands in one; otherwise it stands in the outer one. -/
def putBehind (count distance : Nat) (outer : Option Nat) (entry : Entry) : Entry :=
  { entry with
    offset := entry.offset + distance, parent := (entry.parent.map (count + ·)).or outer }

/-- A row behind another one. What stands in no scope of its own finds the innermost scope of the
front that is still open when every unmatched null entry before it has closed one. -/
def joined (front : List Entry) (distance : Nat) (others : List Entry) : List Entry :=
  front ++ others.mapIdx fun index =>
    putBehind front.length distance (openScopes front)[unmatched (others.take index)]?

variable {front others : List Entry} {distance : Nat} {entry : Entry}

theorem unmatched_concat : unmatched (others ++ [entry]) =
    unmatched others + if entry.isNull && entry.parent.isNone then 1 else 0 := by
  unfold unmatched
  rw [List.countP_append, List.countP_singleton]

theorem length_joined : (joined front distance others).length = front.length + others.length := by
  unfold joined
  rw [List.length_append, List.length_mapIdx]

theorem joined_concat : joined front distance (others ++ [entry]) =
    joined front distance others ++
      [putBehind front.length distance (openScopes front)[unmatched others]? entry] := by
  have earlier : (others.mapIdx fun index => putBehind front.length distance
        (openScopes front)[unmatched ((others ++ [entry]).take index)]?) =
      others.mapIdx fun index => putBehind front.length distance
        (openScopes front)[unmatched (others.take index)]? := by
    rw [List.mapIdx_eq_mapIdx_iff]
    intro index inside
    rw [List.take_append_of_le_length (Nat.le_of_lt inside)]
  unfold joined
  rw [List.mapIdx_concat, earlier, List.take_left, List.append_assoc]

end Entry

namespace Nesting

open Entry (openScopes unmatched joined)

/-- An entry behind scopes of the front opens and closes scopes of its own part, and closes one of
the front only if its own part has none. -/
theorem scopesAfter_append (count index : Nat) (inner outer : List Nat) (entry : EntryBody) :
    scopesAfter (inner.map (count + ·) ++ outer) (count + index) entry =
      (scopesAfter inner index entry).map (count + ·) ++
        if entry.isNull && inner.head?.isNone then outer.tail else outer := by
  unfold scopesAfter
  by_cases isNull : entry.isNull
  · cases inner <;> simp [isNull]
  · by_cases announces : entry.hasChildren <;> simp [isNull, announces]

/-- A row nested behind the entries of the front, and the same row nested alone. -/
structure Continues (front : List Entry) (distance : Nat) (alone whole : Nesting) : Prop where
  entries : whole.entries.toList = joined front distance alone.entries.toList
  scopes : whole.scopes = alone.scopes.map (front.length + ·) ++
    (openScopes front).drop (unmatched alone.entries.toList)

namespace Continues

variable {front : List Entry} {distance : Nat} {alone whole : Nesting} {entry : EntryBody}

protected theorem empty (tracks : whole.Tracks) :
    Continues whole.entries.toList distance .empty whole where
  entries := (List.append_nil _).symm
  scopes := tracks.scopes_eq

theorem head?_scopes (continues : Continues front distance alone whole) :
    whole.scopes.head? = (alone.scopes.head?.map (front.length + ·)).or
      (openScopes front)[unmatched alone.entries.toList]? := by
  rw [continues.scopes, List.head?_append, List.head?_map, List.head?_drop]

/-- One more entry keeps both in step: a null entry closes a scope of its own row while one is
open, and then one of the front. -/
protected theorem add (continues : Continues front distance alone whole) (entry : EntryBody) :
    Continues front distance (alone.add entry) (whole.add (entry.movedBy distance)) where
  entries := by
    rw [entries_add, entries_add, Entry.joined_concat, continues.entries, continues.head?_scopes]
    rfl
  scopes := by
    have length : whole.entries.toList.length = front.length + alone.entries.toList.length := by
      rw [continues.entries, Entry.length_joined]
    rw [scopes_add, scopes_add, entries_add, Entry.unmatched_concat, length, continues.scopes,
      scopesAfter_append]
    change (scopesAfter alone.scopes _ entry).map _ ++
        (if entry.isNull && alone.scopes.head?.isNone then _ else _) =
      _ ++ (openScopes front).drop
        (_ + if entry.isNull && alone.scopes.head?.isNone then 1 else 0)
    split
    · rw [List.tail_drop]
    · rfl

protected theorem addAll {row : List EntryBody} (continues : Continues front distance alone whole) :
    Continues front distance (alone.addAll row) (whole.addAll (row.map (.movedBy distance))) := by
  induction row generalizing alone whole with
  | nil => exact continues
  | cons entry row induction => exact induction (continues.add entry)

end Continues

end Nesting

namespace EntryTable

open Entry (joined)

theorem ofRow_append {front others : List EntryBody} (tracks : (Nesting.empty.addAll front).Tracks)
    (distance : Nat) :
    ofRow (front ++ others.map (.movedBy distance)) =
      .ofEntries (joined (ofRow front).entries distance (ofRow others).entries) := by
  have continues : Nesting.Continues (ofRow front).entries distance (Nesting.empty.addAll others)
      ((Nesting.empty.addAll front).addAll (others.map (.movedBy distance))) :=
    (Nesting.Continues.empty tracks).addAll
  rw [← Nesting.addAll_append] at continues
  rw [ofRow_eq]
  exact congrArg ofEntries continues.entries

variable {abbreviations : AbbreviationTable} {context : AttributeContext} {before front : Bytes}
  {table : EntryTable}

/-- The entries of bytes that stand behind others. -/
def decodeBehind (abbreviations : AbbreviationTable) (context : AttributeContext)
    (before bytes : Bytes) : Except DecodeError EntryTable :=
  (decoder abbreviations context).runAt .info (before ++ bytes) before.length

theorem decodeBehind_eq (bytes : Bytes) : decodeBehind abbreviations context before bytes =
    ofRow <$> (·.1) <$> (EntryBody.rowFrom abbreviations context before.length).run
      (.startingAt .info before.length bytes) := by
  have inside : before.length ≤ (before ++ bytes).length := by simp
  unfold decodeBehind
  rw [Decoder.runAt_of_le inside, List.drop_left]
  exact Decoder.value_map _ _ _

theorem row_of_decodeBehind
    (decoded : decodeBehind abbreviations context before front = .ok table) :
    ∃ row next, (EntryBody.rowFrom abbreviations context before.length).run
        (.startingAt .info before.length front) = .ok (row, next) ∧
      table = ofRow row ∧ (Nesting.empty.addAll row).Tracks := by
  obtain ⟨_, next, outcome⟩ := Decoder.runAt_eq_ok.mp decoded
  obtain ⟨row, reads, same⟩ := row_of_run outcome
  have tracks := tracks_of_row reads
  rw [List.drop_left] at reads
  exact ⟨row, next, reads, same, tracks⟩

/-- A code that is not declared is reported where it begins, whatever stands behind it. -/
theorem decodeBehind_undeclared {encoding : Bytes} {code : UInt64}
    (encodes : Leb128.EncodesUnsigned encoding code.toNat) (nonzero : code ≠ 0)
    (undeclared : abbreviations.find? code = none) (rest : Bytes) :
    decodeBehind abbreviations context before (encoding ++ rest) =
      .error { source := .info, offset := before.length, fault := .unknownAbbreviation code } := by
  have ahead : encoding ++ rest ≠ [] := List.append_ne_nil_of_left_ne_nil encodes.ne_nil rest
  have head : (Decoder.located Decoder.unsigned).Reads (.startingAt .info before.length
      (encoding ++ rest)) encoding rest (before.length, code) :=
    Decoder.located_reads (Decoder.unsigned_reads_number encodes)
  rw [decodeBehind_eq]
  unfold EntryBody.rowFrom
  rw [Decoder.run_itemsToEnd ahead, head.run_bind rfl]
  dsimp only
  unfold EntryBody.decoder
  rw [if_neg nonzero, undeclared]
  rfl

/-- Decoding goes part by part. Where the front decodes, bytes behind it make the whole fail exactly
if they fail alone, for the same reason and, in the section of entries, as much further on as the
front is long; otherwise their entries join those of the front, and so does the map of the places
where entries begin. So the first entry with an undeclared code is reported where the front ends,
whatever follows. -/
theorem decoding_composes
    (decoded : decodeBehind abbreviations context before front = .ok table) :
    (∀ behind, decodeBehind abbreviations context before (front ++ behind) =
      ((fun others => .ofEntries (joined table.entries front.length others.entries)) <$>
        decodeBehind abbreviations context before behind).mapError (.movedBy front.length)) ∧
    ∀ (code : UInt64) (encoding rest : Bytes), Leb128.EncodesUnsigned encoding code.toNat →
      code ≠ 0 → abbreviations.find? code = none →
        decodeBehind abbreviations context before (front ++ (encoding ++ rest)) =
          .error {
            source := .info, offset := before.length + front.length
            fault := .unknownAbbreviation code } := by
  obtain ⟨row, next, reads, rfl, tracks⟩ := row_of_decodeBehind decoded
  have composes (behind : Bytes) : decodeBehind abbreviations context before (front ++ behind) =
      ((fun others => .ofEntries (joined (ofRow row).entries front.length others.entries)) <$>
        decodeBehind abbreviations context before behind).mapError (.movedBy front.length) := by
    rw [decodeBehind_eq, decodeBehind_eq, EntryBody.value_rowFrom_append reads]
    cases (EntryBody.rowFrom abbreviations context before.length).run
        (.startingAt .info before.length behind) with
    | error error => rfl
    | ok result => exact congrArg Except.ok (ofRow_append tracks front.length)
  refine ⟨composes, ?_⟩
  intro code encoding rest encodes nonzero undeclared
  rw [composes, decodeBehind_undeclared encodes nonzero undeclared]
  rfl

/-- A scope without attributes, and a leaf with a byte of data. -/
def openTable : AbbreviationTable where
  declarations := [
    { code := 1, tag := .moduleNamespace, hasChildren := true, attributes := [] },
    { code := 2, tag := .subprogram, hasChildren := false
      attributes := [{ name := .name, form := Form.data1.code }] }]

def openContext : AttributeContext := { version := .four, addressWidth := .eight, strings := [] }

/-- Two scopes are left open. -/
def openFront : List Entry := [
  { offset := 0, code := 1, tag := .moduleNamespace, hasChildren := true, attributes := []
    parent := none },
  { offset := 1, code := 1, tag := .moduleNamespace, hasChildren := true, attributes := []
    parent := some 0 },
  { offset := 2, code := 2, tag := .subprogram, hasChildren := false
    attributes := [{ name := .name, form := .data1, value := .data [5] }], parent := some 1 }]

/-- The second part opens and closes a scope of its own between null entries that close both scopes
of the front, and one that finds nothing to close. -/
theorem decoding_composes_open :
    (·.entries.map fun entry => (entry.offset, entry.parent)) <$>
        decodeBehind openTable openContext [9] ([1, 1, 2, 5] ++ [0, 1, 0, 2, 6, 0, 0, 2, 7]) =
      .ok [
        (0, none), (1, some 0), (2, some 1), (4, some 1), (5, some 0), (6, some 4), (7, some 0),
        (9, some 0), (10, none), (11, none)] ∧
      decodeBehind openTable openContext [9] ([1, 1, 2, 5] ++ ([0x83, 0x00] ++ [7])) =
        .error { source := .info, offset := 5, fault := .unknownAbbreviation 3 } := by
  have decoded : decodeBehind openTable openContext [9] [1, 1, 2, 5] =
      .ok (.ofEntries openFront) := by
    decide +kernel
  have three : Leb128.EncodesUnsigned [0x83, 0x00] 3 := ⟨3, by decide +kernel, rfl⟩
  obtain ⟨composes, undeclared⟩ := decoding_composes decoded
  constructor
  · rw [composes]
    decide +kernel
  · exact undeclared 3 [0x83, 0x00] [7] three (by decide) (by decide +kernel)

end EntryTable

end Symbolication
