import Mathlib.Data.List.Find
import Mathlib.Data.List.Nodup
import Mathlib.Data.List.SplitBy
import Symbolication.Line.Table

/-!
Which row of a table covers an address. The rows of a table fall into sequences, each up to an end
of a sequence; the last one may lack its end. A search looks at neighbouring rows only, and so never
behind the end of a sequence: it searches the sequences one by one, and in each of them finds the
row that the addresses of this sequence ask for.
-/

namespace Symbolication

/-- Rows one behind the other, of which only the last may end a sequence. -/
abbrev RowSequence := List LineRow

namespace RowSequence

/-- The rows that code comes from. -/
def running (sequence : RowSequence) : List LineRow := sequence.filter (!·.endSequence)

/-- The address lies between the first row and the last one, be it the end or not. -/
def Spans (sequence : RowSequence) (address : UInt64) : Prop :=
  (∃ first ∈ sequence.head?, first.address ≤ address) ∧
    ∃ last ∈ sequence.getLast?, address < last.address

def Covers (sequence : RowSequence) (address : UInt64) : Prop :=
  (∃ row ∈ sequence.running, row.address = address) ∨ sequence.Spans address

instance (sequence : RowSequence) (address : UInt64) : Decidable (sequence.Spans address) :=
  inferInstanceAs (Decidable (_ ∧ _))

instance (sequence : RowSequence) (address : UInt64) : Decidable (sequence.Covers address) :=
  inferInstanceAs (Decidable (_ ∨ _))

/-- The first row at the address, or else the last one below it. -/
def rowAt? (sequence : RowSequence) (address : UInt64) : Option LineRow :=
  (sequence.running.find? (·.address = address)).or
    (sequence.running.filter (·.address < address)).getLast?

def Ordered (sequence : RowSequence) : Prop := sequence.Pairwise (·.address ≤ ·.address)

def Ascending (sequence : RowSequence) : Prop := sequence.Pairwise (·.address < ·.address)

instance (sequence : RowSequence) : Decidable sequence.Ordered :=
  inferInstanceAs (Decidable (List.Pairwise _ _))

instance (sequence : RowSequence) : Decidable sequence.Ascending :=
  inferInstanceAs (Decidable (List.Pairwise _ _))

/-- The sequence has its end. -/
def Closed (sequence : RowSequence) : Prop := ∃ last ∈ sequence.getLast?, last.endSequence

instance (sequence : RowSequence) : Decidable sequence.Closed :=
  inferInstanceAs (Decidable (∃ last ∈ _, _))

end RowSequence

namespace LineTable

/-- The rows cut behind every end of a sequence. -/
def sequences (rows : List LineRow) : List RowSequence := rows.splitBy fun row _ => !row.endSequence

variable {address : UInt64} {rows rest : List LineRow} {sequence : RowSequence}

theorem findRow?_append (closed : sequence.Closed) :
    findRow? address (sequence ++ rest) =
      (findRow? address sequence).or (findRow? address rest) := by
  induction sequence with
  | nil => simp [RowSequence.Closed] at closed
  | cons row others induction =>
      cases others with
      | nil =>
          have ends : row.endSequence = true := by simpa [RowSequence.Closed] using closed
          simp [findRow?, ends]
      | cons second others =>
          have closedOthers : RowSequence.Closed (second :: others) := by
            simpa [RowSequence.Closed] using closed
          have step : ∀ behind, findRow? address (row :: second :: behind) =
              if !row.endSequence && covers row (some second) address then some row
              else findRow? address (second :: behind) := fun _ => rfl
          rw [List.cons_append, List.cons_append, step, step, ← List.cons_append,
            induction closedOthers]
          split <;> rfl

/-- Sequences one behind the other are searched one by one. -/
theorem findRow?_flatten {parts : List RowSequence}
    (closed : parts.IsChain fun sequence _ => sequence.Closed) :
    findRow? address parts.flatten = parts.findSome? (findRow? address) := by
  induction parts with
  | nil => rfl
  | cons sequence parts induction =>
      have others : findRow? address (sequence :: parts).flatten =
          (findRow? address sequence).or (parts.findSome? (findRow? address)) := by
        cases parts with
        | nil => simp
        | cons second parts =>
            rw [List.isChain_cons_cons] at closed
            rw [List.flatten_cons, findRow?_append closed.1, induction closed.2]
      rw [others, List.findSome?_cons]
      cases findRow? address sequence <;> rfl

theorem sequences_closed (rows : List LineRow) :
    (sequences rows).IsChain fun sequence _ => sequence.Closed := by
  apply (List.isChain_getLast_head_splitBy _ rows).imp
  rintro sequence next ⟨nonempty, _, ends⟩
  exact ⟨_, List.getLast_mem_getLast? nonempty, by simpa using ends⟩

theorem flatten_sequences (rows : List LineRow) : (sequences rows).flatten = rows :=
  List.flatten_splitBy _ rows

theorem run_of_mem_sequences (member : sequence ∈ sequences rows) :
    sequence.IsChain fun row _ => row.endSequence = false := by
  apply (List.isChain_of_mem_splitBy member).imp
  intro row next runs
  simpa using runs

theorem findRow?_eq_findSome? (rows : List LineRow) (address : UInt64) :
    findRow? address rows = (sequences rows).findSome? (findRow? address) := by
  conv_lhs => rw [← flatten_sequences rows]
  exact findRow?_flatten (sequences_closed rows)

end LineTable

namespace RowSequence

variable {address : UInt64} {row second : LineRow} {rest : RowSequence} {sequence : RowSequence}

theorem mem_running : row ∈ sequence.running ↔ row ∈ sequence ∧ row.endSequence = false := by
  simp [running]

theorem running_cons (runs : row.endSequence = false) :
    running (row :: rest) = row :: running rest := by
  simp [running, runs]

theorem not_covers_of_behind (behind : ∀ row ∈ sequence, address < row.address) :
    ¬sequence.Covers address := by
  rintro (⟨row, member, here⟩ | ⟨⟨first, isFirst, before⟩, _⟩)
  · have later := behind row (mem_running.mp member).1
    grind
  · have later := behind first (List.mem_of_mem_head? isFirst)
    grind

theorem rowAt?_of_here (runs : row.endSequence = false) (here : row.address = address) :
    rowAt? (row :: rest) address = some row := by
  simp [rowAt?, running_cons runs, here]

theorem rowAt?_of_between (runs : row.endSequence = false) (before : row.address < address)
    (behind : ∀ other ∈ rest, address < other.address) :
    rowAt? (row :: rest) address = some row := by
  have noneHere : (running rest).find? (·.address = address) = none := by
    rw [List.find?_eq_none]
    intro other member
    have later := behind other (mem_running.mp member).1
    grind
  have noneBefore : (running rest).filter (·.address < address) = [] := by
    rw [List.filter_eq_nil_iff]
    intro other member
    have later := behind other (mem_running.mp member).1
    grind
  have notHere : row.address ≠ address := by grind
  simp [rowAt?, running_cons runs, notHere, before, noneHere, noneBefore]

/-- A row in front of the address does not matter where others cover it. -/
theorem rowAt?_of_later (runs : row.endSequence = false) (before : row.address < address)
    (other : second ∈ running rest) (reached : second.address ≤ address) :
    rowAt? (row :: rest) address = rest.rowAt? address := by
  have notHere : row.address ≠ address := by grind
  unfold rowAt?
  rw [running_cons runs, List.find?_cons_of_neg (by simpa using notHere),
    List.filter_cons_of_pos (by simpa using before)]
  cases found : rest.running.find? (·.address = address) with
  | some row => rfl
  | none =>
      have notSecond : ¬decide (second.address = address) = true :=
        List.find?_eq_none.mp found second other
      have nonempty : second ∈ rest.running.filter (·.address < address) :=
        List.mem_filter.mpr ⟨other, by grind⟩
      rw [List.getLast?_cons_of_ne_nil (List.ne_nil_of_mem nonempty)]

theorem covers_of_here (runs : row.endSequence = false) (here : row.address = address)
    (member : row ∈ sequence) : sequence.Covers address :=
  .inl ⟨row, mem_running.mpr ⟨member, runs⟩, here⟩

/-- A row in front of the address covers it if the next one is not reached. -/
theorem covers_of_between (ordered : Ordered (row :: second :: rest))
    (before : row.address ≤ address) (unreached : address < second.address) :
    Covers (row :: second :: rest) address := by
  refine .inr ⟨⟨row, rfl, before⟩, ?_⟩
  have nonempty : second :: rest ≠ [] := List.cons_ne_nil second rest
  refine ⟨(second :: rest).getLast nonempty, ?_, ?_⟩
  · rw [List.getLast?_cons_cons]
    exact List.getLast_mem_getLast? nonempty
  · rcases List.mem_cons.mp (List.getLast_mem nonempty) with same | later
    · rw [same]
      exact unreached
    · have orderedRest := (List.pairwise_cons.mp ordered).2
      have rises := (List.pairwise_cons.mp orderedRest).1 _ later
      grind

/-- Where the second row is reached, the first one is not needed to cover the address. -/
theorem covers_cons_iff (notHere : row.address ≠ address) (before : row.address ≤ address)
    (reached : second.address ≤ address) :
    Covers (row :: second :: rest) address ↔ Covers (second :: rest) address := by
  have sameRows : (∃ other ∈ running (row :: second :: rest), other.address = address) ↔
      ∃ other ∈ running (second :: rest), other.address = address := by
    simp only [mem_running, List.mem_cons (a := _) (b := row)]
    grind
  unfold Covers Spans
  rw [sameRows, List.getLast?_cons_cons]
  simp [before, reached]

theorem covers_singleton_iff : Covers [row] address ↔
    row.endSequence = false ∧ row.address = address := by
  constructor
  · rintro (⟨other, member, here⟩ | ⟨⟨first, isFirst, before⟩, last, isLast, behind⟩)
    · obtain ⟨inside, runs⟩ := mem_running.mp member
      rw [List.mem_singleton] at inside
      subst inside
      exact ⟨runs, here⟩
    · cases isFirst
      cases isLast
      grind
  · rintro ⟨runs, here⟩
    exact covers_of_here runs here List.mem_cons_self

/-- Only the last row may be the end. -/
theorem getLast?_of_end (run : sequence.IsChain fun row _ => row.endSequence = false)
    (member : row ∈ sequence) (ends : row.endSequence = true) :
    sequence.getLast? = some row := by
  obtain ⟨before, behind, split⟩ := List.append_of_mem member
  subst split
  cases behind with
  | nil => simp
  | cons next behind =>
      have runs := (List.isChain_cons_cons.mp (List.isChain_append.mp run).2.1).1
      rw [ends] at runs
      cases runs

/-- Below the last row of a sequence that covers the address, rows are no ends. -/
theorem running_of_spans (run : sequence.IsChain fun row _ => row.endSequence = false)
    (spans : sequence.Spans address) (member : row ∈ sequence) (reached : row.address ≤ address) :
    row ∈ sequence.running := by
  refine mem_running.mpr ⟨member, Bool.eq_false_iff.mpr fun ends => ?_⟩
  obtain ⟨_, last, isLast, behind⟩ := spans
  rw [getLast?_of_end run member ends] at isLast
  cases isLast
  grind

theorem mem_running_of_rowAt? (found : sequence.rowAt? address = some row) :
    row ∈ sequence.running ∧ row.address ≤ address := by
  rcases Option.or_eq_some_iff.mp found with here | ⟨_, below⟩
  · have same := List.find?_some here
    exact ⟨List.mem_of_find?_eq_some here, by grind⟩
  · obtain ⟨member, before⟩ := List.mem_filter.mp (List.mem_of_getLast? below)
    exact ⟨member, by grind⟩

theorem exists_rowAt? (run : sequence.IsChain fun row _ => row.endSequence = false)
    (covers : sequence.Covers address) : ∃ row, sequence.rowAt? address = some row := by
  cases missed : sequence.rowAt? address with
  | some row => exact ⟨row, rfl⟩
  | none =>
      obtain ⟨noneHere, noneBelow⟩ := Option.or_eq_none_iff.mp missed
      rw [List.find?_eq_none] at noneHere
      rw [List.getLast?_eq_none_iff, List.filter_eq_nil_iff] at noneBelow
      rcases covers with ⟨row, member, here⟩ | spans
      · exact absurd (by simpa using here) (noneHere row member)
      · obtain ⟨first, isFirst, before⟩ := spans.1
        have member := running_of_spans run spans (List.mem_of_mem_head? isFirst) before
        have notHere := noneHere first member
        have notBelow := noneBelow first member
        grind

theorem eq_or_lt_of_last {last : LineRow} (ascending : sequence.Ascending)
    (member : row ∈ sequence) (isLast : sequence.getLast? = some last) :
    row = last ∨ row.address < last.address := by
  obtain ⟨others, rfl⟩ := List.getLast?_eq_some_iff.mp isLast
  rcases List.mem_append.mp member with before | same
  · exact .inr ((List.pairwise_append.mp ascending).2.2 row before last List.mem_cons_self)
  · exact .inl (List.mem_singleton.mp same)

/-- Where addresses rise and the end is there, a row at the address is no exception. -/
theorem covers_iff_spans (ascending : sequence.Ascending) (closed : sequence.Closed) :
    sequence.Covers address ↔ sequence.Spans address := by
  refine ⟨?_, .inr⟩
  rintro (⟨row, member, here⟩ | spans)
  · obtain ⟨inside, runs⟩ := mem_running.mp member
    constructor
    · cases sequence with
      | nil => cases inside
      | cons first rest =>
          refine ⟨first, rfl, ?_⟩
          rcases List.mem_cons.mp inside with same | later
          · grind
          · have rises := (List.pairwise_cons.mp ascending).1 row later
            grind
    · obtain ⟨last, isLast, ends⟩ := closed
      refine ⟨last, isLast, ?_⟩
      rcases eq_or_lt_of_last ascending inside isLast with same | before
      · grind
      · grind
  · exact spans

theorem rowAt?_greatest (run : sequence.IsChain fun row _ => row.endSequence = false)
    (ascending : sequence.Ascending) (spans : sequence.Spans address)
    (found : sequence.rowAt? address = some row) :
    ∀ other ∈ sequence, other.address ≤ address → other.address ≤ row.address := by
  intro other member reached
  rcases Option.or_eq_some_iff.mp found with here | ⟨noneHere, below⟩
  · have same := List.find?_some here
    grind
  · have runs := running_of_spans run spans member reached
    have notHere := List.find?_eq_none.mp noneHere other runs
    have inside : other ∈ sequence.running.filter (·.address < address) :=
      List.mem_filter.mpr ⟨runs, by grind⟩
    have ascendingBelow : Ascending (sequence.running.filter (·.address < address)) :=
      (ascending.filter _).filter _
    rcases eq_or_lt_of_last ascendingBelow inside below with same | before
    · grind
    · grind

theorem rowAt?_eq_some_iff (run : sequence.IsChain fun row _ => row.endSequence = false)
    (ascending : sequence.Ascending) (spans : sequence.Spans address) :
    sequence.rowAt? address = some row ↔
      row ∈ sequence ∧ row.address ≤ address ∧
        ∀ other ∈ sequence, other.address ≤ address → other.address ≤ row.address := by
  constructor
  · intro found
    obtain ⟨member, reached⟩ := mem_running_of_rowAt? found
    exact ⟨(mem_running.mp member).1, reached, rowAt?_greatest run ascending spans found⟩
  · rintro ⟨member, reached, greatest⟩
    obtain ⟨found, isFound⟩ := exists_rowAt? run (.inr spans)
    obtain ⟨foundMember, foundReached⟩ := mem_running_of_rowAt? isFound
    have inside := (mem_running.mp foundMember).1
    have sameAddress : row.address = found.address := by
      have above := rowAt?_greatest run ascending spans isFound row member reached
      have below := greatest found inside foundReached
      grind
    have apart : (sequence.map (·.address)).Nodup :=
      (List.pairwise_map.mpr ascending).imp fun less => by grind
    rw [List.inj_on_of_nodup_map apart member inside sameAddress]
    exact isFound

end RowSequence

namespace LineTable

variable {address : UInt64} {rows : List LineRow} {row second : LineRow} {sequence : RowSequence}

theorem findRow?_cons_cons (runs : row.endSequence = false) {others : List LineRow} :
    findRow? address (row :: second :: others) =
      if row.address = address ∨ row.address ≤ address ∧ address < second.address then some row
      else findRow? address (second :: others) := by
  rw [findRow?]
  simp [runs, covers]

/-- In a sequence whose rows do not fall, the search finds the row that its addresses ask for. -/
theorem findRow?_sequence (run : sequence.IsChain fun row _ => row.endSequence = false)
    (ordered : sequence.Ordered) :
    findRow? address sequence =
      if sequence.Covers address then sequence.rowAt? address else none := by
  induction sequence with
  | nil => rfl
  | cons row rest induction =>
      cases rest with
      | nil =>
          by_cases covered : row.endSequence = false ∧ row.address = address
          · rw [if_pos (RowSequence.covers_singleton_iff.mpr covered),
              RowSequence.rowAt?_of_here covered.1 covered.2]
            simp [findRow?, covers, covered]
          · rw [if_neg (RowSequence.covers_singleton_iff.not.mpr covered)]
            simpa [findRow?, covers] using covered
      | cons second others =>
          obtain ⟨runs, runOthers⟩ := List.isChain_cons_cons.mp run
          obtain ⟨rises, orderedOthers⟩ := List.pairwise_cons.mp ordered
          have searchRest := induction runOthers orderedOthers
          rw [findRow?_cons_cons runs]
          by_cases here : row.address = address
          · have covers : RowSequence.Covers (row :: second :: others) address :=
              RowSequence.covers_of_here runs here List.mem_cons_self
            rw [if_pos (.inl here), if_pos covers, RowSequence.rowAt?_of_here runs here]
          by_cases before : row.address ≤ address
          · by_cases reached : second.address ≤ address
            · rw [if_neg (by grind), searchRest]
              have covers : RowSequence.Covers (row :: second :: others) address ↔
                  RowSequence.Covers (second :: others) address :=
                RowSequence.covers_cons_iff here before reached
              by_cases covered : RowSequence.Covers (second :: others) address
              · -- The second row cannot be the end, which would not cover the address.
                have runsSecond : second.endSequence = false := by
                  cases others with
                  | nil => exact (RowSequence.covers_singleton_iff.mp covered).1
                  | cons third others => exact (List.isChain_cons_cons.mp runOthers).1
                rw [if_pos covered, if_pos (covers.mpr covered),
                  RowSequence.rowAt?_of_later runs (by grind)
                    (RowSequence.mem_running.mpr ⟨List.mem_cons_self, runsSecond⟩) reached]
              · rw [if_neg covered, if_neg (covers.not.mpr covered)]
            · have unreached : address < second.address := by grind
              have behind : ∀ other ∈ second :: others, address < other.address := by
                rw [List.forall_mem_cons]
                refine ⟨unreached, fun other member => ?_⟩
                have rises := (List.pairwise_cons.mp orderedOthers).1 other member
                grind
              rw [if_pos (.inr ⟨before, unreached⟩),
                if_pos (RowSequence.covers_of_between ordered before unreached),
                RowSequence.rowAt?_of_between runs (by grind) behind]
          · have behind : ∀ other ∈ row :: second :: others, address < other.address := by
              rw [List.forall_mem_cons]
              refine ⟨by grind, fun other member => ?_⟩
              have rise := rises other member
              grind
            rw [if_neg (by grind), searchRest,
              if_neg (RowSequence.not_covers_of_behind (List.forall_mem_cons.mp behind).2),
              if_neg (RowSequence.not_covers_of_behind behind)]

/-- The first sequence that covers the address answers. -/
theorem findRow?_eq_bind (ordered : ∀ sequence ∈ sequences rows, sequence.Ordered) :
    findRow? address rows =
      ((sequences rows).find? (·.Covers address)).bind (·.rowAt? address) := by
  rw [findRow?_eq_findSome?]
  have run : ∀ sequence ∈ sequences rows,
      sequence.IsChain fun row _ => row.endSequence = false := fun _ => run_of_mem_sequences
  generalize sequences rows = parts at ordered run ⊢
  induction parts with
  | nil => rfl
  | cons sequence parts induction =>
      rw [List.forall_mem_cons] at ordered run
      rw [List.findSome?_cons, findRow?_sequence run.1 ordered.1]
      by_cases covers : sequence.Covers address
      · obtain ⟨row, found⟩ := RowSequence.exists_rowAt? run.1 covers
        rw [if_pos covers, found, List.find?_cons_of_pos (by simpa using covers)]
        exact found.symm
      · rw [if_neg covers, List.find?_cons_of_neg (by simpa using covers)]
        exact induction ordered.2 run.2

/-- A row is found for an address exactly if a sequence of the table covers it, and the first one
that does answers: with its first row at the address, or else its last row below it. Where addresses
rise and every sequence has its end, this is the greatest row up to the address. -/
theorem findRow?_answers_first_covering (rows : List LineRow)
    (ordered : ∀ sequence ∈ sequences rows, sequence.Ordered) (address : UInt64) :
    (findRow? address rows = none ↔
        ∀ sequence ∈ sequences rows, ¬sequence.Covers address) ∧
      findRow? address rows =
        ((sequences rows).find? (·.Covers address)).bind (·.rowAt? address) ∧
      (∀ row, findRow? address rows = some row → row.endSequence = false ∧
        ∃ sequence, (sequences rows).find? (·.Covers address) = some sequence ∧
          row ∈ sequence) ∧
      ((∀ sequence ∈ sequences rows, sequence.Ascending ∧ sequence.Closed) →
        (findRow? address rows = none ↔
          ∀ sequence ∈ sequences rows, ¬sequence.Spans address) ∧
        ∀ row, findRow? address rows = some row ↔
          ∃ sequence, (sequences rows).find? (·.Spans address) = some sequence ∧
            row ∈ sequence ∧ row.address ≤ address ∧
            ∀ other ∈ sequence, other.address ≤ address → other.address ≤ row.address) := by
  have run : ∀ sequence ∈ sequences rows,
      sequence.IsChain fun row _ => row.endSequence = false := fun _ => run_of_mem_sequences
  have found : findRow? address rows =
      ((sequences rows).find? (·.Covers address)).bind (·.rowAt? address) :=
    findRow?_eq_bind ordered
  have missed : findRow? address rows = none ↔
      ∀ sequence ∈ sequences rows, ¬sequence.Covers address := by
    rw [found]
    cases isFirst : (sequences rows).find? (·.Covers address) with
    | none =>
        have uncovered : ∀ sequence ∈ sequences rows, ¬sequence.Covers address := by
          simpa using isFirst
        exact ⟨fun _ => uncovered, fun _ => rfl⟩
    | some sequence =>
        have covers : sequence.Covers address := by simpa using List.find?_some isFirst
        have member := List.mem_of_find?_eq_some isFirst
        obtain ⟨row, hit⟩ := RowSequence.exists_rowAt? (run sequence member) covers
        rw [Option.bind_some, hit]
        exact ⟨fun none => (Option.some_ne_none _ none).elim,
          fun uncovered => absurd covers (uncovered sequence member)⟩
  refine ⟨missed, found, ?_, ?_⟩
  · intro row hit
    rw [found] at hit
    obtain ⟨sequence, isFirst, rowFound⟩ := Option.bind_eq_some_iff.mp hit
    obtain ⟨member, runs⟩ :=
      RowSequence.mem_running.mp (RowSequence.mem_running_of_rowAt? rowFound).1
    exact ⟨runs, sequence, isFirst, member⟩
  · intro regular
    have same : ∀ sequence ∈ sequences rows,
        (sequence.Covers address ↔ sequence.Spans address) := fun sequence member =>
      RowSequence.covers_iff_spans (regular sequence member).1 (regular sequence member).2
    have sameFirst : (sequences rows).find? (·.Covers address) =
        (sequences rows).find? (·.Spans address) :=
      List.find?_congr fun sequence member => decide_eq_decide.mpr (same sequence member)
    constructor
    · rw [missed]
      exact forall₂_congr fun sequence member => not_congr (same sequence member)
    · intro row
      rw [found, sameFirst, Option.bind_eq_some_iff]
      refine exists_congr fun sequence => and_congr_right fun isFirst => ?_
      have member := List.mem_of_find?_eq_some isFirst
      exact RowSequence.rowAt?_eq_some_iff (run sequence member) (regular sequence member).1
        (by simpa using List.find?_some isFirst)

/-- Two sequences, the later one below the earlier one. -/
def descendingRows : List LineRow := [
  { address := 0x20, file := 0, line := 1, column := 0, isStatement := true, endSequence := false },
  { address := 0x28, file := 0, line := 2, column := 0, isStatement := true, endSequence := false },
  { address := 0x30, file := 0, line := 2, column := 0, isStatement := true, endSequence := true },
  { address := 0x10, file := 0, line := 3, column := 0, isStatement := true, endSequence := false },
  { address := 0x18, file := 0, line := 3, column := 0, isStatement := true, endSequence := true }]

/-- In front of them a sequence that covers one address only, twice, and behind them one without an
end. -/
def unevenRows : List LineRow := [
  { address := 0x2c, file := 0, line := 4, column := 0, isStatement := true, endSequence := false },
  { address := 0x2c, file := 0, line := 5, column := 0, isStatement := true, endSequence := false },
  { address := 0x2c, file := 0, line := 5, column := 0, isStatement := true, endSequence := true }]
    ++ descendingRows ++ [
  { address := 0x40, file := 0, line := 6, column := 0, isStatement := true, endSequence := false },
  { address := 0x48, file := 0, line := 7, column := 0, isStatement := true, endSequence := false }]

/-- The gap between the sequences is not covered. At the doubled address the first row answers. -/
theorem findRow?_answers_first_covering_uneven :
    ((∀ sequence ∈ sequences unevenRows, sequence.Ordered) ∧
      findRow? 0x1c unevenRows = none ∧
      (findRow? 0x2c unevenRows).map (·.line) = some 4 ∧
      (findRow? 0x2f unevenRows).map (·.line) = some 2) ∧
    (∀ sequence ∈ sequences descendingRows, sequence.Ascending ∧ sequence.Closed) ∧
      findRow? 0x12 descendingRows = descendingRows[3]? := by
  have ordered : ∀ sequence ∈ sequences unevenRows, sequence.Ordered := by decide
  have regular : ∀ sequence ∈ sequences descendingRows, sequence.Ascending ∧ sequence.Closed := by
    decide
  refine ⟨⟨ordered, ?_, ?_, ?_⟩, regular, ?_⟩
  · exact (findRow?_answers_first_covering unevenRows ordered 0x1c).1.mpr (by decide)
  · rw [(findRow?_answers_first_covering unevenRows ordered 0x2c).2.1]
    decide
  · rw [(findRow?_answers_first_covering unevenRows ordered 0x2f).2.1]
    decide
  · obtain ⟨_, greatest⟩ :=
      (findRow?_answers_first_covering descendingRows (by decide) 0x12).2.2.2 regular
    exact (greatest _).mpr ⟨_, rfl, by decide⟩

end LineTable

end Symbolication
