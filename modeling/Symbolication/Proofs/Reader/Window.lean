import Symbolication.Proofs.Reader.Performing

/-!
What a reader views: a window of a section. Where the reader stands counts from the start of the
section, and the bytes that are left are those of the section from there to the end of the window.
Moving a reader behind bytes that it has ahead keeps its window.
-/

namespace Symbolication

theorem Bytes.slice?_length_iff {bytes middle : Bytes} {offset : Nat} :
    bytes.slice? offset middle.length = some middle ↔
      ∃ front behind, bytes = front ++ (middle ++ behind) ∧ front.length = offset := by
  constructor
  · intro found
    unfold slice? at found
    split at found
    · rename_i inside
      have same := Option.some.inj found
      refine ⟨bytes.take offset, (bytes.drop offset).drop middle.length, ?_, ?_⟩
      · calc
          bytes = bytes.take offset ++ ((bytes.drop offset).take middle.length ++
              (bytes.drop offset).drop middle.length) := by
            rw [List.take_append_drop, List.take_append_drop]
          _ = bytes.take offset ++ (middle ++ (bytes.drop offset).drop middle.length) := by
            rw [same]
      · exact List.length_take_of_le (by omega)
    · cases found
  · rintro ⟨front, behind, stands, length⟩
    exact slice?_of_eq front behind stands length rfl

namespace Reader

/-- The bytes are the next ones of the section, and the window does not end in front of their
end. -/
structure HasAhead (reader : Reader) (bytes taken : Bytes) : Prop where
  stands : bytes.slice? reader.offset taken.length = some taken
  inside : reader.offset + taken.length ≤ reader.stop

/-- The window is a part of the section, and the reader stands in it with the rest of it ahead. -/
structure Views (reader : Reader) (source : DebugSection) (bytes : Bytes) : Prop where
  source_eq : reader.source = source
  window : bytes.slice? reader.origin reader.data.length = some reader.data
  inside : reader.position ≤ reader.data.length
  left : ∃ left, reader.left = .ok left ∧ reader.position + left = reader.data.length
  remaining : ∃ rest, reader.remaining = .ok rest ∧
    bytes.slice? reader.offset rest.length = some rest ∧
      reader.offset + rest.length = reader.stop

/-- How reading begins: with a whole section, or at an offset of it. -/
inductive Opens (source : DebugSection) (bytes : Bytes) : Reader → Prop
  | whole : Opens source bytes (ofSection source bytes)
  | part {offset : Nat} {reader : Reader}
      (found : (startAt source bytes offset).run = .ok (.ok reader)) : Opens source bytes reader

/-- Reading can begin at the end of a section, not behind it. -/
theorem run_startAt (source : DebugSection) (bytes : Bytes) (offset : Nat) :
    (startAt source bytes offset).run =
      if offset ≤ bytes.length then
        .ok (.ok { source, origin := offset, data := bytes.drop offset, position := 0 })
      else .ok (.error { source, offset, fault := .offsetOutOfBounds }) := by
  unfold startAt
  by_cases inside : offset ≤ bytes.length
  · rw [if_neg (Nat.not_lt.mpr inside), if_pos inside, Checked.slice_to_end inside]
    rfl
  · rw [if_pos (Nat.lt_of_not_le inside), if_neg inside]
    rfl

variable {reader : Reader} {source : DebugSection} {bytes taken : Bytes}

theorem length_rest (inside : reader.position ≤ reader.data.length) :
    reader.position + reader.cursor.rest.length = reader.data.length := by
  change reader.position + (reader.data.drop reader.position).length = _
  rw [List.length_drop]
  omega

/-- What is left of the window, in the section. -/
theorem stands_in (window : bytes.slice? reader.origin reader.data.length = some reader.data)
    (inside : reader.position ≤ reader.data.length) :
    ∃ front behind, bytes = front ++ (reader.cursor.rest ++ behind) ∧
      front.length = reader.offset := by
  obtain ⟨front, behind, stands, length⟩ := Bytes.slice?_length_iff.mp window
  refine ⟨front ++ reader.data.take reader.position, behind, ?_, ?_⟩
  · change bytes = front ++ reader.data.take _ ++ (reader.data.drop reader.position ++ behind)
    rw [stands, List.append_assoc, ← List.append_assoc (reader.data.take _),
      List.take_append_drop]
  · rw [List.length_append, length, List.length_take_of_le inside]
    rfl

theorem Views.of_window (source_eq : reader.source = source)
    (window : bytes.slice? reader.origin reader.data.length = some reader.data)
    (inside : reader.position ≤ reader.data.length) : reader.Views source bytes where
  source_eq := source_eq
  window := window
  inside := inside
  left := ⟨_, (stands_cursor inside).left_eq_ok, length_rest inside⟩
  remaining := by
    refine ⟨_, (stands_cursor inside).remaining_eq_ok,
      Bytes.slice?_length_iff.mpr (stands_in window inside), ?_⟩
    have length := length_rest inside
    unfold offset stop
    omega

theorem Opens.views (opens : reader.Opens source bytes) : reader.Views source bytes := by
  cases opens with
  | whole =>
      exact .of_window rfl (Bytes.slice?_of_eq [] [] (by simp [ofSection]) rfl rfl) (Nat.zero_le _)
  | @part offset _ found =>
      rw [run_startAt] at found
      split at found <;> cases found
      rename_i inside
      refine .of_window rfl (Bytes.slice?_of_eq (bytes.take offset) [] ?_ ?_ rfl) (Nat.zero_le _)
      · rw [List.append_nil, List.take_append_drop]
      · exact List.length_take_of_le inside

namespace Views

/-- A reader has bytes ahead if its cursor has. -/
theorem hasAhead_iff (views : reader.Views source bytes) :
    reader.HasAhead bytes taken ↔ ∃ suffix, reader.cursor.rest = taken ++ suffix := by
  obtain ⟨front, behind, stands, place⟩ := stands_in views.window views.inside
  have room := length_rest views.inside
  constructor
  · rintro ⟨found, inside⟩
    obtain ⟨front', behind', stands', place'⟩ := Bytes.slice?_length_iff.mp found
    have same := (List.append_inj (stands.symm.trans stands') (place.trans place'.symm)).2
    have short : taken.length ≤ reader.cursor.rest.length := by
      unfold offset stop at inside
      omega
    obtain ⟨suffix, whole⟩ :=
      List.prefix_of_prefix_length_le ⟨behind', same.symm⟩ ⟨behind, rfl⟩ short
    exact ⟨suffix, whole.symm⟩
  · rintro ⟨suffix, ahead⟩
    constructor
    · refine Bytes.slice?_length_iff.mpr ⟨front, suffix ++ behind, ?_, place⟩
      rw [stands, ahead, List.append_assoc]
    · rw [ahead, List.length_append] at room
      unfold offset stop
      omega

theorem advance (views : reader.Views source bytes) (ahead : reader.HasAhead bytes taken) :
    (reader.advance taken.length).Views source bytes := by
  refine .of_window views.source_eq views.window ?_
  have inside := ahead.inside
  unfold offset stop at inside
  change reader.position + taken.length ≤ reader.data.length
  omega

/-- A reader for bytes that another one has ahead. -/
theorem splitOff (views : reader.Views source bytes) (ahead : reader.HasAhead bytes taken) :
    (ofWindow (reader.cursor.windowOver taken)).Views source bytes :=
  .of_window views.source_eq ahead.stands (Nat.zero_le _)

end Views

end Reader

end Symbolication
