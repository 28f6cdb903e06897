import Symbolication.DecodeError

/-!
A cursor is a place in a window of a section: where the window begins, how much of it has been
read, and the bytes still to read. `Reaches` relates it to the places further on in its window.
-/

namespace Symbolication

structure Cursor where
  source : DebugSection
  /-- Section offset of the first byte of the window. -/
  origin : Nat
  /-- Bytes of the window that have been read. -/
  position : Nat
  rest : Bytes
deriving DecidableEq, Repr

namespace Cursor

def offset (cursor : Cursor) : Nat := cursor.origin + cursor.position

def left (cursor : Cursor) : Nat := cursor.rest.length

/-- Section offset behind the last byte of the window. -/
def stop (cursor : Cursor) : Nat := cursor.offset + cursor.left

def isFinished (cursor : Cursor) : Bool := cursor.rest.isEmpty

def error (cursor : Cursor) (fault : DecodeFault) : DecodeError :=
  { source := cursor.source, offset := cursor.offset, fault }

def ofSection (source : DebugSection) (bytes : Bytes) : Cursor :=
  { source, origin := 0, position := 0, rest := bytes }

/-- The bytes of a section from an offset on. The offset may be the section's end, not behind it. -/
def startAt (source : DebugSection) (bytes : Bytes) (offset : Nat) : Except DecodeError Cursor :=
  if offset ≤ bytes.length then
    .ok { source, origin := offset, position := 0, rest := bytes.drop offset }
  else
    .error { source, offset, fault := .offsetOutOfBounds }

/-- The cursor after `taken` when `suffix` is what follows. -/
def after (cursor : Cursor) (taken suffix : Bytes) : Cursor :=
  { cursor with position := cursor.position + taken.length, rest := suffix }

/-- The later cursor stands in the same window, behind bytes that the earlier one has ahead. -/
def Reaches (earlier later : Cursor) : Prop :=
  ∃ taken, earlier.rest = taken ++ later.rest ∧ later = earlier.after taken later.rest

theorem Reaches.refl (cursor : Cursor) : cursor.Reaches cursor :=
  ⟨[], by simp [after]⟩

theorem Reaches.trans {first second third : Cursor}
    (start : first.Reaches second) (finish : second.Reaches third) : first.Reaches third := by
  obtain ⟨left, left_rest, left_eq⟩ := start
  obtain ⟨right, right_rest, right_eq⟩ := finish
  refine ⟨left ++ right, by simp [left_rest, right_rest], ?_⟩
  rw [right_eq, left_eq]
  simp [after, Nat.add_assoc]

theorem Reaches.of_append {cursor : Cursor} {taken suffix : Bytes}
    (split : cursor.rest = taken ++ suffix) : cursor.Reaches (cursor.after taken suffix) :=
  ⟨taken, split, rfl⟩

theorem Reaches.left_le {earlier later : Cursor} (reaches : earlier.Reaches later) :
    later.left ≤ earlier.left := by
  obtain ⟨taken, split, _⟩ := reaches
  simp [left, split]

theorem Reaches.source_eq {earlier later : Cursor} (reaches : earlier.Reaches later) :
    later.source = earlier.source := by
  obtain ⟨taken, _, stands⟩ := reaches
  rw [stands]
  rfl

theorem Reaches.offset_le {earlier later : Cursor} (reaches : earlier.Reaches later) :
    earlier.offset ≤ later.offset := by
  obtain ⟨taken, _, stands⟩ := reaches
  rw [stands]
  simp only [offset, after]
  omega

theorem Reaches.stop_eq {earlier later : Cursor} (reaches : earlier.Reaches later) :
    later.stop = earlier.stop := by
  obtain ⟨taken, split, stands⟩ := reaches
  rw [stands]
  simp only [stop, offset, left, after, split, List.length_append]
  omega

theorem left_after_lt {cursor : Cursor} {taken suffix : Bytes}
    (split : cursor.rest = taken ++ suffix) (some_taken : 0 < taken.length) :
    (cursor.after taken suffix).left < cursor.left := by
  simp [left, after, split, some_taken]

end Cursor

end Symbolication
