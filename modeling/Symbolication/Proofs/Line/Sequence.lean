import Symbolication.Proofs.Line.Coverage
import Symbolication.Proofs.Line.Program

/-!
Sequences of rows, and the row of a table that covers an address. The rows of a sequence ascend to
the address where it stops, so among those that are not behind the address the last one covers it.
-/

namespace Symbolication

/-- A place in a source file from which machine code comes. Its file is counted from one. -/
structure SourceRow where
  address : UInt64
  file : UInt64
  line : UInt64
  column : UInt64
  isStatement : Bool
deriving DecidableEq, Repr

/-- Rows for consecutive code, at least one, and the address behind that code. -/
structure SourceSequence where
  first : SourceRow
  later : List SourceRow
  stop : UInt64
deriving DecidableEq, Repr

namespace SourceRow

def written (row : SourceRow) : WrittenRow where
  address := row.address
  file := row.file
  line := row.line
  column := row.column
  isStatement := row.isStatement
  endSequence := false

/-- The end of a sequence whose last row this is. -/
def closing (row : SourceRow) (stop : UInt64) : WrittenRow :=
  { row.written with address := stop, endSequence := true }

end SourceRow

/-- The last of the rows that is not behind an address in front of `stop`. -/
def lastRowAt? (rows : List SourceRow) (stop address : UInt64) : Option SourceRow :=
  if address < stop then (rows.filter (·.address ≤ address)).getLast? else none

namespace SourceSequence

def rows (sequence : SourceSequence) : List SourceRow := sequence.first :: sequence.later

def last (sequence : SourceSequence) : SourceRow :=
  sequence.rows.getLast (List.cons_ne_nil _ _)

def written (sequence : SourceSequence) : List WrittenRow :=
  sequence.rows.map SourceRow.written ++ [sequence.last.closing sequence.stop]

def rowAt? (sequence : SourceSequence) (address : UInt64) : Option SourceRow :=
  lastRowAt? sequence.rows sequence.stop address

def Ascending (sequence : SourceSequence) : Prop :=
  (sequence.rows.map (·.address) ++ [sequence.stop]).Pairwise (· < ·)

instance (sequence : SourceSequence) : Decidable sequence.Ascending :=
  inferInstanceAs (Decidable (List.Pairwise _ _))

/-- The end of a sequence has the file of its last row, so it can be written where the rows can. -/
theorem written_fits {sequence : SourceSequence} {width : Width} {fileCount : Nat}
    (rowsFit : ∀ row ∈ sequence.rows, row.written.Fits width fileCount)
    (stopFits : sequence.stop.toNat < 256 ^ width.bytes) :
    ∀ row ∈ sequence.written, row.Fits width fileCount := by
  have lastFits := rowsFit sequence.last (List.getLast_mem _)
  unfold written
  rw [List.forall_mem_append, List.forall_mem_map, List.forall_mem_singleton]
  exact ⟨rowsFit, ⟨stopFits, lastFits.file_pos, lastFits.file_le⟩⟩

end SourceSequence

namespace LineTable

variable {address stop : UInt64}

theorem findRow?_closing {closing : WrittenRow} (ends : closing.endSequence = true) :
    findRow? address [closing.lineRow] = none := by
  rw [findRow?, if_neg (by simp [WrittenRow.lineRow, ends])]
  rfl

theorem findRow?_between {row : SourceRow} {next : WrittenRow} {rest : List LineRow}
    (ascends : row.address < next.address) :
    findRow? address (row.written.lineRow :: next.lineRow :: rest) =
      if row.address ≤ address ∧ address < next.address then some row.written.lineRow
      else findRow? address (next.lineRow :: rest) := by
  have covered : row.address = address ∨ row.address ≤ address ∧ address < next.address ↔
      row.address ≤ address ∧ address < next.address := by grind
  rw [← if_congr covered rfl rfl]
  exact findRow?_cons_cons rfl

theorem lastRowAt?_of_between {first second : SourceRow} {later : List SourceRow}
    (ascending : ((first :: second :: later).map (·.address) ++ [stop]).Pairwise (· < ·))
    (between : first.address ≤ address ∧ address < second.address) :
    lastRowAt? (first :: second :: later) stop address = some first := by
  simp only [List.map_cons, List.cons_append, List.pairwise_cons] at ascending
  obtain ⟨_, behindSecond, _⟩ := ascending
  have inside : address < stop :=
    UInt64.lt_trans between.2 (behindSecond stop (List.mem_append_right _ List.mem_cons_self))
  have noOther : (second :: later).filter (·.address ≤ address) = [] := by
    rw [List.filter_eq_nil_iff]
    intro row member
    rw [decide_eq_true_eq, UInt64.not_le]
    rcases List.mem_cons.mp member with rfl | isLater
    · exact between.2
    · exact UInt64.lt_trans between.2
        (behindSecond row.address (List.mem_append_left _ (List.mem_map_of_mem isLater)))
  unfold lastRowAt?
  rw [if_pos inside, List.filter_cons_of_pos (by simpa using between.1), noOther]
  rfl

theorem lastRowAt?_of_not_between {first second : SourceRow} {later : List SourceRow}
    (ascends : first.address < second.address)
    (outside : ¬(first.address ≤ address ∧ address < second.address)) :
    lastRowAt? (first :: second :: later) stop address =
      lastRowAt? (second :: later) stop address := by
  unfold lastRowAt?
  by_cases reached : second.address ≤ address
  · have before : first.address ≤ address := UInt64.le_of_lt (UInt64.lt_of_lt_of_le ascends reached)
    rw [List.filter_cons_of_pos (by simpa using before),
      List.filter_cons_of_pos (by simpa using reached), List.getLast?_cons_cons]
  · have behind : ¬first.address ≤ address := fun before =>
      outside ⟨before, UInt64.not_le.mp reached⟩
    rw [List.filter_cons_of_neg (by simpa using behind)]

theorem findRow?_rows {closing : WrittenRow} (ends : closing.endSequence = true)
    (first : SourceRow) (later : List SourceRow)
    (ascending : ((first :: later).map (·.address) ++ [closing.address]).Pairwise (· < ·)) :
    findRow? address ((first :: later).map (·.written.lineRow) ++ [closing.lineRow]) =
      (lastRowAt? (first :: later) closing.address address).map (·.written.lineRow) := by
  induction later generalizing first with
  | nil =>
      -- The last row is bounded by the end of the sequence, which covers nothing itself.
      have ascends : first.address < closing.address := by simpa using ascending
      rw [List.map_singleton, List.singleton_append, findRow?_between ascends,
        findRow?_closing ends]
      unfold lastRowAt?
      by_cases inside : address < closing.address
      · by_cases reached : first.address ≤ address
        · simp [inside, reached]
        · simp [inside, reached]
      · simp [inside]
  | cons second later induction =>
      have fromSecond := (List.pairwise_cons.mp ascending).2
      have ascends : first.address < second.address :=
        (List.pairwise_cons.mp ascending).1 second.address (by simp)
      rw [List.map_cons, List.map_cons, List.cons_append, List.cons_append,
        findRow?_between ascends]
      by_cases between : first.address ≤ address ∧ address < second.address
      · rw [lastRowAt?_of_between ascending between]
        exact if_pos between
      · rw [lastRowAt?_of_not_between ascends between, ← induction second fromSecond]
        exact if_neg between

theorem findRow?_written {sequence : SourceSequence} (ascending : sequence.Ascending) :
    findRow? address (sequence.written.map WrittenRow.lineRow) =
      (sequence.rowAt? address).map (·.written.lineRow) := by
  have ends : (sequence.last.closing sequence.stop).endSequence = true := rfl
  rw [SourceSequence.written, List.map_append, List.map_map, List.map_singleton]
  exact findRow?_rows ends sequence.first sequence.later ascending

/-- The first sequence that covers the address answers, by its row for the address. -/
theorem findRow?_sequences {sequences : List SourceSequence}
    (ascending : ∀ sequence ∈ sequences, sequence.Ascending) (address : UInt64) :
    findRow? address ((sequences.flatMap SourceSequence.written).map WrittenRow.lineRow) =
      (sequences.findSome? (·.rowAt? address)).map (·.written.lineRow) := by
  induction sequences with
  | nil => rfl
  | cons sequence sequences induction =>
      rw [List.forall_mem_cons] at ascending
      have closed : RowSequence.Closed (sequence.written.map WrittenRow.lineRow) := by
        unfold SourceSequence.written RowSequence.Closed
        rw [List.map_append, List.map_singleton, List.getLast?_concat]
        exact ⟨_, rfl, rfl⟩
      rw [List.flatMap_cons, List.map_append, findRow?_append closed,
        findRow?_written ascending.1, induction ascending.2, List.findSome?_cons]
      cases sequence.rowAt? address <;> rfl

theorem locate?_eq_none {table : LineTable} (missed : findRow? address table.rows = none) :
    table.locate? address = none := by
  unfold locate?
  split
  · rfl
  · rename_i row found
    rw [missed] at found
    cases found

theorem locate?_eq_some {table : LineTable} {row : LineRow} {path : String}
    (hit : findRow? address table.rows = some row) (named : table.paths[row.file]? = some path) :
    table.locate? address = some (row, path) := by
  unfold locate?
  split
  · rename_i missed
    rw [hit] at missed
    cases missed
  · rename_i row' found
    rw [hit] at found
    cases found
    obtain ⟨bound, same⟩ := List.getElem?_eq_some_iff.mp named
    rw [List.get_eq_getElem, same]

end LineTable

end Symbolication
