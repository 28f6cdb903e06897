import Mathlib.Data.List.Induction
import Symbolication.Entry.Basic

/-!
The map from offsets to entries. It is filled while a row is nested, entry by entry, and an entry
takes the place of an earlier one with its offset. So an offset leads to the last entry that begins
there, and to the only one where offsets increase, as they do in every row that is decoded.
-/

namespace Symbolication

namespace EntryTable

/-- The map behind entries that have been entered in their order. -/
def indicesOf (entries : List Entry) : List (Nat × Nat) :=
  (entries.mapIdx fun index entry => (entry.offset, index)).reverse

def ofEntries (entries : List Entry) : EntryTable := { entries, indices := indicesOf entries }

variable {entries : List Entry} {entry : Entry} {offset index : Nat}

theorem indicesOf_concat :
    indicesOf (entries ++ [entry]) = (entry.offset, entries.length) :: indicesOf entries := by
  unfold indicesOf
  rw [List.mapIdx_concat, List.reverse_concat]

theorem indexAt?_ofEntries_concat :
    (ofEntries (entries ++ [entry])).indexAt? offset =
      if entry.offset = offset then some entries.length
      else (ofEntries entries).indexAt? offset := by
  unfold indexAt? ofEntries
  rw [indicesOf_concat, List.lookup_cons]
  by_cases begins : entry.offset = offset
  · rw [if_pos begins, beq_iff_eq.mpr begins.symm]
  · rw [if_neg begins, beq_false_of_ne (Ne.symm begins)]

/-- The entry at an index begins at the offset. -/
def Begins (entries : List Entry) (offset index : Nat) : Prop :=
  ∃ entry, entries[index]? = some entry ∧ entry.offset = offset

theorem Begins.lt_length (begins : Begins entries offset index) : index < entries.length := by
  obtain ⟨_, found, _⟩ := begins
  exact (List.getElem?_eq_some_iff.mp found).1

/-- What begins at an offset once another entry has been added: that one, or what began there. -/
theorem begins_concat : Begins (entries ++ [entry]) offset index ↔
    Begins entries offset index ∨ index = entries.length ∧ entry.offset = offset := by
  rcases Nat.lt_trichotomy index entries.length with inside | rfl | outside
  · have earlier : (entries ++ [entry])[index]? = entries[index]? :=
      List.getElem?_append_left inside
    unfold Begins
    rw [earlier]
    exact (or_iff_left fun isLast => Nat.ne_of_lt inside isLast.1).symm
  · constructor
    · rintro ⟨_, found, begins⟩
      rw [List.getElem?_concat_length] at found
      cases found
      exact .inr ⟨rfl, begins⟩
    · rintro (begins | ⟨_, begins⟩)
      · exact absurd begins.lt_length (Nat.lt_irrefl _)
      · exact ⟨entry, List.getElem?_concat_length, begins⟩
  · constructor
    · intro begins
      have inside := begins.lt_length
      rw [List.length_append, List.length_singleton] at inside
      omega
    · rintro (begins | ⟨isLast, _⟩)
      · exact absurd begins.lt_length (Nat.lt_asymm outside)
      · exact absurd isLast (Nat.ne_of_gt outside)

/-- The map leads to the last entry with an offset. -/
theorem indexAt?_ofEntries_eq_some_iff :
    (ofEntries entries).indexAt? offset = some index ↔
      Begins entries offset index ∧ ∀ later, index < later → ¬Begins entries offset later := by
  -- By induction on the entries in the order in which they are entered, the last one first.
  induction entries using List.reverseRecOn with
  | nil =>
      constructor
      · intro found
        cases found
      · rintro ⟨begins, _⟩
        exact absurd begins.lt_length (Nat.not_lt_zero _)
  | append_singleton entries last induction =>
      rw [indexAt?_ofEntries_concat]
      simp only [begins_concat]
      by_cases begins : last.offset = offset
      · rw [if_pos begins, Option.some.injEq]
        constructor
        · rintro rfl
          refine ⟨.inr ⟨rfl, begins⟩, ?_⟩
          rintro later behind (found | ⟨isLast, _⟩)
          · exact Nat.lt_asymm behind found.lt_length
          · exact Nat.ne_of_gt behind isLast
        · rintro ⟨found | ⟨isLast, _⟩, nothingLater⟩
          · exact absurd (.inr ⟨rfl, begins⟩) (nothingLater _ found.lt_length)
          · exact isLast.symm
      · rw [if_neg begins, induction]
        simp only [begins, and_false, or_false]

theorem indexAt?_eq_some_iff
    (increasing : entries.Pairwise fun earlier later => earlier.offset < later.offset) :
    (ofEntries entries).indexAt? offset = some index ↔
      ∃ entry, entries[index]? = some entry ∧ entry.offset = offset := by
  rw [indexAt?_ofEntries_eq_some_iff]
  constructor
  · exact And.left
  · rintro ⟨entry, found, begins⟩
    refine ⟨⟨entry, found, begins⟩, ?_⟩
    rintro later behind ⟨other, foundLater, beginsLater⟩
    obtain ⟨inside, rfl⟩ := List.getElem?_eq_some_iff.mp found
    obtain ⟨insideLater, rfl⟩ := List.getElem?_eq_some_iff.mp foundLater
    have less := List.pairwise_iff_getElem.mp increasing index later inside insideLater behind
    omega

end EntryTable

namespace Nesting

theorem addAll_cons (nesting : Nesting) (entry : EntryBody) (row : List EntryBody) :
    nesting.addAll (entry :: row) = (nesting.add entry).addAll row := rfl

theorem entries_add (nesting : Nesting) (entry : EntryBody) :
    (nesting.add entry).entries.toList =
      nesting.entries.toList ++ [{ entry with parent := nesting.scopes.head? }] :=
  Array.toList_push

theorem length_add (nesting : Nesting) (entry : EntryBody) :
    (nesting.add entry).entries.toList.length = nesting.entries.toList.length + 1 := by
  rw [entries_add, List.length_append, List.length_singleton]

theorem scopes_add (nesting : Nesting) (entry : EntryBody) :
    (nesting.add entry).scopes = scopesAfter nesting.scopes nesting.entries.toList.length entry :=
  rfl

/-- The map holds the entries so far. -/
def Records (nesting : Nesting) : Prop :=
  nesting.indices = EntryTable.indicesOf nesting.entries.toList

variable {nesting : Nesting}

theorem Records.add (records : nesting.Records) (entry : EntryBody) :
    (nesting.add entry).Records := by
  unfold Records
  rw [entries_add, EntryTable.indicesOf_concat, ← records]
  rfl

theorem Records.addAll (records : nesting.Records) (row : List EntryBody) :
    (nesting.addAll row).Records := by
  induction row generalizing nesting with
  | nil => exact records
  | cons entry row induction => exact induction (records.add entry)

end Nesting

namespace EntryTable

theorem ofRow_eq (row : List EntryBody) : ofRow row = ofEntries (ofRow row).entries := by
  have records : Nesting.empty.Records := rfl
  exact congrArg (EntryTable.mk (ofRow row).entries) (records.addAll row)

variable {abbreviations : AbbreviationTable} {context : AttributeContext} {cursor next : Cursor}
  {table : EntryTable}

theorem row_of_run (outcome : (decoder abbreviations context).run cursor = .ok (table, next)) :
    ∃ row, (EntryBody.row abbreviations context).run cursor = .ok (row, next) ∧
      table = ofRow row := by
  unfold decoder at outcome
  rw [Decoder.run_map] at outcome
  split at outcome <;> cases outcome
  rename_i row reads
  exact ⟨row, reads, rfl⟩

/-- The map of decoded entries is that of the entries, whatever the bytes are. -/
theorem eq_ofEntries_of_run
    (outcome : (decoder abbreviations context).run cursor = .ok (table, next)) :
    table = ofEntries table.entries := by
  obtain ⟨row, _, rfl⟩ := row_of_run outcome
  exact ofRow_eq row

end EntryTable

end Symbolication
