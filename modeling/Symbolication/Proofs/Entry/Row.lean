import Symbolication.Proofs.Decoder.Placeless
import Symbolication.Proofs.Entry.Table

/-!
Rows of entries as any bytes hold them. Entries that decode stand one behind the other, from the
first byte of their window to the last: the first begins at offset zero, each ends where the next
one begins, and none is empty.
-/

namespace Symbolication

/-- The entries of the row lie one behind the other, from an offset to a later one. -/
inductive EntryBody.Tiles : Nat → Nat → List EntryBody → Prop
  | nothing {stop : Nat} : Tiles stop stop []
  | entry {entry : EntryBody} {next stop : Nat} {rest : List EntryBody} :
      entry.offset < next → Tiles next stop rest → Tiles entry.offset stop (entry :: rest)

namespace EntryBody

variable {abbreviations : AbbreviationTable} {context : AttributeContext} {start stop : Nat}
  {row : List EntryBody}

theorem Tiles.start_le (tiles : Tiles start stop row) : start ≤ stop := by
  induction tiles with
  | nothing => exact Nat.le_refl _
  | entry before _ induction => omega

theorem Tiles.offset_of_first (tiles : Tiles start stop row) {entry : EntryBody}
    (first : row.head? = some entry) : entry.offset = start := by
  cases tiles with
  | nothing => cases first
  | entry before tiles =>
      cases first
      rfl

theorem Tiles.within (tiles : Tiles start stop row) :
    ∀ entry ∈ row, start ≤ entry.offset ∧ entry.offset < stop := by
  induction tiles with
  | nothing => simp
  | @entry entry next stop rest before tiles induction =>
      have ends := tiles.start_le
      rintro other (_ | ⟨_, member⟩)
      · omega
      · have bounds := induction other member
        omega

theorem Tiles.increasing (tiles : Tiles start stop row) :
    row.Pairwise fun earlier later => earlier.offset < later.offset := by
  induction tiles with
  | nothing => exact .nil
  | entry before tiles induction =>
      refine List.pairwise_cons.mpr ⟨?_, induction⟩
      intro later member
      have bounds := tiles.within later member
      omega

/-- A place between the two offsets lies in one entry, at its first byte or behind it. -/
theorem Tiles.covers (tiles : Tiles start stop row) {place : Nat} (behind : start ≤ place)
    (before : place < stop) :
    ∃ index entry, row[index]? = some entry ∧ entry.offset ≤ place ∧
      place < (row[index + 1]?).elim stop (·.offset) := by
  induction tiles with
  | nothing => omega
  | @entry entry next stop rest positive tiles induction =>
      rcases Nat.lt_or_ge place next with inFirst | later
      · refine ⟨0, entry, rfl, behind, ?_⟩
        cases tiles with
        | nothing => exact before
        | entry _ _ => exact inFirst
      · obtain ⟨index, found, stands⟩ := induction later before
        exact ⟨index + 1, found, stands⟩

section Behind

variable {first : Nat} {code : UInt64} {cursor next : Cursor} {entry : EntryBody}

/-- What stands behind a code: nothing behind zero, else the attributes that the layout of the code
declares. -/
theorem cases_of_run
    (outcome : (decoder abbreviations context first start code).run cursor = .ok (entry, next)) :
    code = 0 ∧ entry = null (start - first) ∨
      ∃ layout attributes, code ≠ 0 ∧ abbreviations.find? code = some layout ∧
        (layout.attributes.mapM (Attribute.decoder context)).run cursor = .ok (attributes, next) ∧
        entry = {
          offset := start - first, code, tag := layout.tag, hasChildren := layout.hasChildren
          attributes } := by
  unfold decoder at outcome
  split at outcome
  · rename_i isZero
    cases outcome
    exact .inl ⟨isZero, rfl⟩
  · rename_i nonzero
    split at outcome
    · cases outcome
    · rename_i layout found
      obtain ⟨attributes, _, reads, finish⟩ := Decoder.run_bind_eq_ok.mp outcome
      cases finish
      exact .inr ⟨layout, attributes, nonzero, found, reads, rfl⟩

theorem offset_of_run
    (outcome : (decoder abbreviations context first start code).run cursor = .ok (entry, next)) :
    entry.offset = start - first := by
  rcases cases_of_run outcome with ⟨_, rfl⟩ | ⟨_, _, _, _, _, rfl⟩ <;> rfl

theorem tag_of_isNull
    (outcome : (decoder abbreviations context first start code).run cursor = .ok (entry, next))
    (isNull : entry.isNull = true) : entry.tag = .null := by
  rcases cases_of_run outcome with ⟨_, rfl⟩ | ⟨_, _, nonzero, _, _, rfl⟩
  · rfl
  · exact absurd (of_decide_eq_true isNull) nonzero

end Behind

/-- What one round of a row finds: nothing at the end, or an entry that begins where it stands. -/
theorem item_of_run {first : Nat} {cursor next : Cursor} {found? : Option EntryBody}
    (outcome : (Decoder.itemIfLeft (.located .unsigned) fun (start, code) =>
      some <$> decoder abbreviations context first start code).run cursor = .ok (found?, next)) :
    match found? with
    | none => cursor.stop = cursor.offset
    | some entry => entry.offset = cursor.offset - first ∧ cursor.offset < next.offset ∧
        next.stop = cursor.stop := by
  rw [Decoder.run_itemIfLeft] at outcome
  split at outcome
  · rename_i finished
    cases outcome
    have left : cursor.left = 0 := List.length_eq_zero_iff.mpr (List.isEmpty_iff.mp finished)
    simp only [Cursor.stop, left, Nat.add_zero]
  · obtain ⟨⟨start, code⟩, middle, head, body⟩ := Decoder.run_bind_eq_ok.mp outcome
    have shorter := Decoder.located_consumes Decoder.unsigned_consumes _ _ _ head
    have reachesMiddle := Decoder.reaches _ head
    have place : start = cursor.offset := Decoder.start_of_located head
    rw [Decoder.run_map] at body
    split at body
    · cases body
    · rename_i entry next' reads
      cases body
      have reachesNext := Decoder.reaches _ reads
      have sameStop := reachesNext.stop_eq.trans reachesMiddle.stop_eq
      have fewer := reachesNext.left_le
      refine ⟨place ▸ offset_of_run reads, ?_, sameStop⟩
      simp only [Cursor.stop] at sameStop
      omega

/-- An entry with its code. -/
def item (abbreviations : AbbreviationTable) (context : AttributeContext) (first : Nat) :
    Decoder EntryBody :=
  Decoder.located .unsigned >>= fun (start, code) =>
    decoder abbreviations context first start code

/-- The entries of a row, whose offsets count from `first`. -/
def rowFrom (abbreviations : AbbreviationTable) (context : AttributeContext) (first : Nat) :
    Decoder (List EntryBody) :=
  .itemsToEnd (.located .unsigned) (Decoder.located_consumes Decoder.unsigned_consumes)
    fun (start, code) => decoder abbreviations context first start code

theorem row_eq : EntryBody.row abbreviations context =
    (do let first ← Decoder.offset; rowFrom abbreviations context first) :=
  rfl

theorem offset_of_item {first : Nat} {cursor next : Cursor} {entry : EntryBody}
    (outcome : (item abbreviations context first).run cursor = .ok (entry, next)) :
    entry.offset = cursor.offset - first := by
  obtain ⟨⟨start, code⟩, _, head, body⟩ := Decoder.run_bind_eq_ok.mp outcome
  have place : start = cursor.offset := Decoder.start_of_located head
  rw [offset_of_run body, place]

/-- Behind its code, an entry has the attributes that its layout declares. -/
theorem attributes_of_item {first : Nat} {cursor next : Cursor} {entry : EntryBody}
    (outcome : (item abbreviations context first).run cursor = .ok (entry, next))
    (notNull : entry.isNull = false) :
    ∃ layout behind, Decoder.unsigned.run cursor = .ok (entry.code, behind) ∧
      abbreviations.find? entry.code = some layout ∧
      (layout.attributes.mapM (Attribute.decoder context)).run behind =
        .ok (entry.attributes, next) := by
  obtain ⟨⟨start, code⟩, behind, head, body⟩ := Decoder.run_bind_eq_ok.mp outcome
  obtain ⟨_, _, here, head⟩ := Decoder.run_bind_eq_ok.mp head
  obtain ⟨_, _, reads, finish⟩ := Decoder.run_bind_eq_ok.mp head
  cases here
  cases finish
  rcases cases_of_run body with ⟨_, rfl⟩ | ⟨layout, _, _, found, readsAttributes, rfl⟩
  · cases notNull
  · exact ⟨layout, behind, reads, found, readsAttributes⟩

/-- Every entry of a row is read by itself, at some place of the row. -/
theorem item_of_rowFrom {first : Nat} {cursor next : Cursor}
    (outcome : (rowFrom abbreviations context first).run cursor = .ok (row, next)) :
    ∀ entry ∈ row, ∃ place final, cursor.Reaches place ∧
      (item abbreviations context first).run place = .ok (entry, final) := by
  refine Decoder.itemsToEnd_induction (motive := fun cursor found => ∀ entry ∈ found,
    ∃ place final, cursor.Reaches place ∧
      (item abbreviations context first).run place = .ok (entry, final)) ?_ ?_ outcome
  · intro cursor _ entry member
    cases member
  · intro cursor next entry found step others
    refine List.forall_mem_cons.mpr ⟨⟨cursor, next, .refl cursor, step⟩, ?_⟩
    intro other member
    obtain ⟨place, final, reaches, reads⟩ := others other member
    exact ⟨place, final, (Decoder.reaches _ step).trans reaches, reads⟩

theorem row_tiles {cursor next : Cursor}
    (outcome : (EntryBody.row abbreviations context).run cursor = .ok (row, next)) :
    Tiles 0 cursor.left row := by
  obtain ⟨first, _, here, finds⟩ := Decoder.run_bind_eq_ok.mp outcome
  cases here
  -- Offsets count from where the row begins, while the round moves on.
  have tiles : cursor.offset ≤ cursor.offset →
      Tiles (cursor.offset - cursor.offset) (cursor.stop - cursor.offset) row := by
    refine Decoder.items_induction (motive := fun later found => cursor.offset ≤ later.offset →
      Tiles (later.offset - cursor.offset) (later.stop - cursor.offset) found) ?_ ?_ finds
    · intro later next step _
      rw [item_of_run step]
      exact .nothing
    · intro later next entry found step tiles behind
      obtain ⟨place, before, sameStop⟩ := item_of_run step
      have others := tiles (by omega)
      rw [sameStop] at others
      rw [← place]
      exact .entry (by omega) others
  have reach : cursor.stop - cursor.offset = cursor.left := Nat.add_sub_cancel_left _ _
  rw [← reach]
  simpa using tiles (Nat.le_refl _)

end EntryBody

namespace Nesting

theorem addAll_toEntryBody (nesting : Nesting) (row : List EntryBody) :
    (nesting.addAll row).entries.toList.map Entry.toEntryBody =
      nesting.entries.toList.map Entry.toEntryBody ++ row := by
  induction row generalizing nesting with
  | nil => exact (List.append_nil _).symm
  | cons entry row induction =>
      change ((nesting.add entry).addAll row).entries.toList.map Entry.toEntryBody = _
      rw [induction]
      unfold add
      simp

end Nesting

namespace EntryTable

theorem ofRow_toEntryBody (row : List EntryBody) :
    (ofRow row).entries.map Entry.toEntryBody = row :=
  Nesting.empty.addAll_toEntryBody row

variable {abbreviations : AbbreviationTable} {context : AttributeContext}

/-- Scopes are given to a row without moving its entries. -/
theorem tiles_of_run {cursor next : Cursor} {table : EntryTable}
    (outcome : (decoder abbreviations context).run cursor = .ok (table, next)) :
    EntryBody.Tiles 0 cursor.left (table.entries.map Entry.toEntryBody) := by
  obtain ⟨row, reads, rfl⟩ := row_of_run outcome
  rw [ofRow_toEntryBody]
  exact EntryBody.row_tiles reads

theorem increasing_of_run {cursor next : Cursor} {table : EntryTable}
    (outcome : (decoder abbreviations context).run cursor = .ok (table, next)) :
    table.entries.Pairwise fun earlier later => earlier.offset < later.offset := by
  have increasing := (tiles_of_run outcome).increasing
  rwa [List.pairwise_map] at increasing

/-- The map that is filled while entries are decoded leads from an offset to the entry that begins
there. -/
theorem indexAt?_of_run {cursor next : Cursor} {table : EntryTable} {offset index : Nat}
    (outcome : (decoder abbreviations context).run cursor = .ok (table, next)) :
    table.indexAt? offset = some index ↔
      ∃ entry, table.entries[index]? = some entry ∧ entry.offset = offset := by
  rw [eq_ofEntries_of_run outcome]
  exact indexAt?_eq_some_iff (increasing_of_run outcome)

theorem item_of_run {cursor next : Cursor} {table : EntryTable} {entry : Entry}
    (outcome : (decoder abbreviations context).run cursor = .ok (table, next))
    (member : entry ∈ table.entries) :
    ∃ place final, cursor.Reaches place ∧
      (EntryBody.item abbreviations context cursor.offset).run place =
        .ok (entry.toEntryBody, final) := by
  obtain ⟨row, reads, rfl⟩ := row_of_run outcome
  obtain ⟨first, _, here, finds⟩ := Decoder.run_bind_eq_ok.mp reads
  cases here
  have inRow := List.mem_map_of_mem member (f := Entry.toEntryBody)
  rw [ofRow_toEntryBody] at inRow
  exact EntryBody.item_of_rowFrom finds _ inRow

theorem decoder_tiles {source : DebugSection} {bytes : Bytes} {offset : Nat}
    {table : EntryTable}
    (decodes : (decoder abbreviations context).runAt source bytes offset = .ok table) :
    EntryBody.Tiles 0 (bytes.length - offset) (table.entries.map Entry.toEntryBody) := by
  obtain ⟨_, next, outcome⟩ := Decoder.runAt_eq_ok.mp decodes
  rw [← List.length_drop]
  exact tiles_of_run outcome

end EntryTable

end Symbolication
