import Symbolication.Proofs.Line.Acceptance
import Symbolication.Proofs.Line.Advance
import Symbolication.Proofs.Line.Coverage

/-!
Addresses that rise. A program is cut behind every end of a sequence, as its rows are, and each part
makes one sequence of them. Behind its first row, a sequence that sets no address can only move on;
where no step overflows, its rows are in the order of their addresses, as a search needs them.
-/

namespace Symbolication

namespace LineInstruction

/-- The instructions cut behind every end of a sequence. -/
def sequences (instructions : List LineInstruction) : List (List LineInstruction) :=
  instructions.splitBy fun instruction _ => !instruction.ends

variable {instructions part : List LineInstruction}

theorem flatten_sequences (instructions : List LineInstruction) :
    (sequences instructions).flatten = instructions :=
  List.flatten_splitBy _ instructions

theorem sequences_ended (instructions : List LineInstruction) :
    (sequences instructions).IsChain fun part _ => part.getLast? = some .endSequence := by
  apply (List.isChain_getLast_head_splitBy _ instructions).imp
  rintro part next ⟨nonempty, _, ends⟩
  have isEnd := eq_endSequence (by simpa using ends : (part.getLast nonempty).ends = true)
  rw [List.getLast?_eq_some_getLast nonempty, isEnd]

theorem run_of_mem_sequences (member : part ∈ sequences instructions) :
    part.IsChain fun instruction _ => instruction.ends = false := by
  apply (List.isChain_of_mem_splitBy member).imp
  intro instruction next runs
  simpa using runs

end LineInstruction

namespace LineRegisters

variable {header : LineHeader} {registers row : LineRegisters} {operations : UInt64}
  {instruction : LineInstruction} {instructions : List LineInstruction}

/-- The registers can move on by the operations without an overflow: neither the operations, counted
from the start of the word, nor the address come to 64 bits. -/
def Reaches (header : LineHeader) (operations : UInt64) (registers : LineRegisters) : Prop :=
  registers.operationIndex.toNat + operations.toNat < 2 ^ 64 ∧
    registers.address.toNat + header.minimumInstructionLength.toNat *
      ((registers.operationIndex.toNat + operations.toNat) / header.maximumOperations.toNat) <
        2 ^ 64

/-- The instruction sets no address, and overflows none. -/
def Steady (header : LineHeader) (registers : LineRegisters) : LineInstruction → Prop
  | .special adjusted => registers.Reaches header (specialOperations header adjusted)
  | .advanceAddress operations => registers.Reaches header operations
  | .addConstant => registers.Reaches header (specialOperations header (255 - header.opcodeBase))
  | .fixedAdvance delta => registers.address.toNat + delta.toNat < 2 ^ 64
  | .setAddress _ => False
  | _ => True

/-- All instructions are steady, each from where those in front of it have come to. -/
def SteadyThrough (header : LineHeader) : LineRegisters → List LineInstruction → Prop
  | _, [] => True
  | registers, instruction :: instructions =>
      registers.Steady header instruction ∧
        SteadyThrough header (registers.after header instruction) instructions

/-- All instructions behind the one that emits the first row are steady. -/
def SteadyBehindFirst (header : LineHeader) : LineRegisters → List LineInstruction → Prop
  | _, [] => True
  | registers, instruction :: instructions =>
      if instruction.emits then
        SteadyThrough header (registers.after header instruction) instructions
      else SteadyBehindFirst header (registers.after header instruction) instructions

instance (operations : UInt64) (registers : LineRegisters) :
    Decidable (registers.Reaches header operations) :=
  inferInstanceAs (Decidable (_ ∧ _))

instance (registers : LineRegisters) :
    (instruction : LineInstruction) → Decidable (registers.Steady header instruction)
  | .special _ | .advanceAddress _ | .addConstant =>
      inferInstanceAs (Decidable (registers.Reaches header _))
  | .fixedAdvance _ => Nat.decLt _ _
  | .setAddress _ => .isFalse id
  | .copy | .advanceLine _ | .setFile _ | .setColumn _ | .negateStatement | .setBasicBlock
  | .setPrologueEnd | .setEpilogueBegin | .setInstructionSet _ | .endSequence | .defineFile _
  | .setDiscriminator _ | .skip => .isTrue trivial

instance decidableSteadyThrough : (registers : LineRegisters) →
    (instructions : List LineInstruction) → Decidable (SteadyThrough header registers instructions)
  | _, [] => .isTrue trivial
  | registers, instruction :: instructions =>
      have := decidableSteadyThrough (registers.after header instruction) instructions
      inferInstanceAs (Decidable (_ ∧ _))

instance decidableSteadyBehindFirst : (registers : LineRegisters) →
    (instructions : List LineInstruction) →
      Decidable (SteadyBehindFirst header registers instructions)
  | _, [] => .isTrue trivial
  | registers, instruction :: instructions =>
      have := decidableSteadyBehindFirst (registers.after header instruction) instructions
      inferInstanceAs (Decidable (if instruction.emits then SteadyThrough header _ _
        else SteadyBehindFirst header _ _))

theorem le_add_of_fits {number distance : UInt64}
    (fits : number.toNat + distance.toNat < 2 ^ 64) : number ≤ number + distance := by
  rw [UInt64.le_iff_toNat_le, UInt64.toNat_add, Nat.mod_eq_of_lt fits]
  exact Nat.le_add_right _ _

theorem le_add_mul_of_fits {number length count : UInt64}
    (fits : number.toNat + length.toNat * count.toNat < 2 ^ 64) :
    number ≤ number + length * count := by
  apply le_add_of_fits
  rw [UInt64.toNat_mul, Nat.mod_eq_of_lt (Nat.lt_of_le_of_lt (Nat.le_add_left _ _) fits)]
  exact fits

theorem address_le_advance (reaches : registers.Reaches header operations) :
    registers.address ≤ (registers.advance header operations).address := by
  obtain ⟨total, fits⟩ := reaches
  unfold advance
  dsimp only
  split
  · rename_i single
    -- The index counts here, though the step does not look at it: it only asks for more room.
    have words : header.maximumOperations.toNat = 1 := by
      have one : header.maximumOperations = 1 := UInt8.toUInt64_inj.mp single
      rw [one]
      rfl
    rw [words, Nat.div_one] at fits
    have less : header.minimumInstructionLength.toNat * operations.toNat ≤
        header.minimumInstructionLength.toNat *
          (registers.operationIndex.toNat + operations.toNat) :=
      Nat.mul_le_mul_left _ (Nat.le_add_left _ _)
    apply le_add_mul_of_fits
    rw [UInt8.toNat_toUInt64]
    omega
  · apply le_add_mul_of_fits
    rw [UInt64.toNat_div, UInt64.toNat_add, Nat.mod_eq_of_lt total, UInt8.toNat_toUInt64,
      UInt8.toNat_toUInt64]
    exact fits

/-- A steady instruction does not go back. -/
theorem address_le_after (steady : registers.Steady header instruction)
    (runs : instruction.ends = false) :
    registers.address ≤ (registers.after header instruction).address := by
  cases instruction with
  | special adjusted => exact address_le_advance steady
  | advanceAddress operations => exact address_le_advance steady
  | addConstant => exact address_le_advance steady
  | fixedAdvance delta => exact le_add_of_fits (by rw [UInt16.toNat_toUInt64]; exact steady)
  | setAddress address => exact steady.elim
  | endSequence => cases runs
  | _ => exact UInt64.le_refl _

/-- A row has the address that its instruction comes to. -/
theorem emission_address (emitted : registers.emission? header instruction = some row)
    (runs : instruction.ends = false) :
    row.address = (registers.after header instruction).address := by
  rw [after_of_emission emitted runs]
  rfl

/-- The end of a sequence emits a row where it stands, and nothing follows it. -/
theorem emissions_of_end (run : (instruction :: instructions).IsChain
      fun instruction _ => instruction.ends = false) (ends : instruction.ends = true) :
    emissions header registers (instruction :: instructions) =
      [{ registers with endSequence := true }] := by
  cases instructions with
  | nil =>
      rw [LineInstruction.eq_endSequence ends]
      rfl
  | cons next others =>
      rw [(List.isChain_cons_cons.mp run).1] at ends
      cases ends

theorem emissions_cons_ordered
    (run : (instruction :: instructions).IsChain fun instruction _ => instruction.ends = false)
    (behind : ∀ row ∈ emissions header (registers.after header instruction) instructions,
      (registers.after header instruction).address ≤ row.address)
    (ordered : (emissions header (registers.after header instruction) instructions).Pairwise
      (·.address ≤ ·.address)) :
    (emissions header registers (instruction :: instructions)).Pairwise
      (·.address ≤ ·.address) := by
  cases ends : instruction.ends with
  | true =>
      rw [emissions_of_end run ends]
      exact List.pairwise_singleton _ _
  | false =>
      rw [emissions]
      cases emitted : registers.emission? header instruction with
      | none => exact ordered
      | some row =>
          rw [← emission_address emitted ends] at behind
          exact List.pairwise_cons.mpr ⟨behind, ordered⟩

/-- Rows that steady instructions emit are not below the address where they begin, and in order. -/
theorem emissions_of_steady
    (run : instructions.IsChain fun instruction _ => instruction.ends = false)
    (steady : SteadyThrough header registers instructions) :
    (∀ row ∈ emissions header registers instructions, registers.address ≤ row.address) ∧
      (emissions header registers instructions).Pairwise (·.address ≤ ·.address) := by
  -- The bound on the rows behind is what puts the first row in order with them.
  induction instructions generalizing registers with
  | nil => exact ⟨by simp [emissions], .nil⟩
  | cons instruction instructions induction =>
      obtain ⟨behind, ordered⟩ := induction run.tail steady.2
      refine ⟨?_, emissions_cons_ordered run behind ordered⟩
      intro row member
      cases ends : instruction.ends with
      | true =>
          rw [emissions_of_end run ends, List.mem_singleton] at member
          rw [member]
          exact UInt64.le_refl _
      | false =>
          have rises := address_le_after steady.1 ends
          rw [emissions, List.mem_append, Option.mem_toList] at member
          rcases member with emitted | later
          · rw [emission_address emitted ends]
            exact rises
          · exact UInt64.le_trans rises (behind row later)

/-- From the first row on, rows are in order if what follows that row is steady. -/
theorem emissions_ordered
    (run : instructions.IsChain fun instruction _ => instruction.ends = false)
    (steady : SteadyBehindFirst header registers instructions) :
    (emissions header registers instructions).Pairwise (·.address ≤ ·.address) := by
  induction instructions generalizing registers with
  | nil => exact .nil
  | cons instruction instructions induction =>
      unfold SteadyBehindFirst at steady
      split at steady
      · obtain ⟨behind, ordered⟩ := emissions_of_steady run.tail steady
        exact emissions_cons_ordered run behind ordered
      · rename_i silent
        rw [emissions, emission?_eq_none (Bool.eq_false_iff.mpr silent)]
        exact induction run.tail steady

theorem endSequence_advance :
    (registers.advance header operations).endSequence = registers.endSequence := by
  unfold advance
  dsimp only
  split <;> rfl

/-- Registers are marked as an end only for the row of the end. -/
theorem after_running (running : registers.endSequence = false) :
    (registers.after header instruction).endSequence = false := by
  cases instruction with
  | special adjusted => exact endSequence_advance.trans running
  | advanceAddress operations => exact endSequence_advance.trans running
  | addConstant => exact endSequence_advance.trans running
  | endSequence => rfl
  | _ => exact running

theorem emission_running (running : registers.endSequence = false)
    (emitted : registers.emission? header instruction = some row)
    (runs : instruction.ends = false) : row.endSequence = false := by
  have left : (registers.after header instruction).endSequence = false := after_running running
  rw [after_of_emission emitted runs] at left
  exact left

/-- One sequence of instructions makes one sequence of rows. -/
theorem emissions_run (running : registers.endSequence = false)
    (run : instructions.IsChain fun instruction _ => instruction.ends = false) :
    (emissions header registers instructions).IsChain fun row _ => row.endSequence = false := by
  induction instructions generalizing registers with
  | nil => exact .nil
  | cons instruction instructions induction =>
      cases ends : instruction.ends with
      | true =>
          rw [emissions_of_end run ends]
          exact .singleton _
      | false =>
          have others : (emissions header (registers.after header instruction)
              instructions).IsChain fun row _ => row.endSequence = false :=
            induction (after_running running) run.tail
          rw [emissions]
          cases emitted : registers.emission? header instruction with
          | none => exact others
          | some row => exact others.cons fun _ _ => emission_running running emitted ends

/-- Each part of a program begins with new registers, so its rows are its own. -/
theorem emissions_flatten {parts : List (List LineInstruction)}
    (ended : parts.IsChain fun part _ => part.getLast? = some .endSequence) :
    emissions header (.initial header) parts.flatten =
      parts.flatMap (emissions header (.initial header)) := by
  induction parts with
  | nil => rfl
  | cons part parts induction =>
      cases parts with
      | nil => simp
      | cons next parts =>
          obtain ⟨last, others⟩ := List.isChain_cons_cons.mp ended
          have anew : (initial header).afterAll header part = .initial header := by
            have left : ((LineState.initial header).run header part).registers =
                .initial header := LineState.run_registers_of_ended (.inr last)
            rw [LineState.run_registers] at left
            exact left
          rw [List.flatten_cons, emissions_append, anew, induction others]
          rfl

/-- A program makes its rows sequence by sequence. -/
theorem emissions_eq_flatMap (header : LineHeader) (instructions : List LineInstruction) :
    emissions header (.initial header) instructions =
      (LineInstruction.sequences instructions).flatMap (emissions header (.initial header)) := by
  conv_lhs => rw [← LineInstruction.flatten_sequences instructions]
  exact emissions_flatten (LineInstruction.sequences_ended instructions)

end LineRegisters

namespace LineTable

variable {header : LineHeader} {instructions part : List LineInstruction}

/-- The rows that one part of a program makes. -/
def rowsOf (header : LineHeader) (part : List LineInstruction) : RowSequence :=
  (LineRegisters.emissions header (.initial header) part).map fun row =>
    (WrittenRow.ofRegisters row).lineRow

theorem rowsOf_run (run : part.IsChain fun instruction _ => instruction.ends = false) :
    (rowsOf header part).IsChain fun row _ => row.endSequence = false :=
  (List.isChain_map _).mpr (LineRegisters.emissions_run rfl run)

theorem rowsOf_closed (ended : part.getLast? = some .endSequence) :
    (rowsOf header part).Closed := by
  obtain ⟨others, rfl⟩ := List.getLast?_eq_some_iff.mp ended
  unfold rowsOf RowSequence.Closed
  rw [LineRegisters.emissions_append, List.map_append]
  exact ⟨_, List.getLast?_concat, rfl⟩

theorem rowsOf_ordered (run : part.IsChain fun instruction _ => instruction.ends = false)
    (steady : LineRegisters.SteadyBehindFirst header (.initial header) part) :
    (rowsOf header part).Ordered :=
  List.pairwise_map.mpr (LineRegisters.emissions_ordered run steady)

/-- Rows fall into sequences as the instructions do that make them. A part without rows is none. -/
theorem sequences_flatMap_rowsOf {parts : List (List LineInstruction)}
    (ended : parts.IsChain fun part _ => part.getLast? = some .endSequence)
    (run : ∀ part ∈ parts, part.IsChain fun instruction _ => instruction.ends = false) :
    sequences (parts.flatMap (rowsOf header)) =
      (parts.map (rowsOf header)).filter (· ≠ []) := by
  induction parts with
  | nil => rfl
  | cons part parts induction =>
      rw [List.forall_mem_cons] at run
      have alone : sequences (rowsOf header part) = [rowsOf header part].filter (· ≠ []) := by
        by_cases empty : rowsOf header part = []
        · rw [empty]
          rfl
        · rw [List.filter_cons_of_pos (by simpa using empty)]
          refine List.splitBy_of_isChain empty ((rowsOf_run run.1).imp fun row _ runs => ?_)
          simp [runs]
      have cut : sequences (rowsOf header part ++ parts.flatMap (rowsOf header)) =
          sequences (rowsOf header part) ++ sequences (parts.flatMap (rowsOf header)) := by
        cases parts with
        | nil => simp [sequences]
        | cons next parts =>
            obtain ⟨last, isLast, ends⟩ : (rowsOf header part).Closed :=
              rowsOf_closed (List.isChain_cons_cons.mp ended).1
            apply List.splitBy_append
            intro row isRow _ _
            rw [Option.mem_unique isRow isLast, ends]
            rfl
      rw [List.flatMap_cons, cut, alone, induction ended.tail run.2]
      exact (List.filter_append [rowsOf header part] _).symm

/-- The rows of a table fall into sequences as the instructions of its program do. -/
theorem HasProgram.sequences_eq {lines opcodes : Bytes} {offset : Nat} {addressSize : UInt8}
    {table : LineTable}
    (has : HasProgram lines offset addressSize header opcodes instructions)
    (decodes : decode lines offset addressSize = .ok table) :
    sequences table.rows =
      ((LineInstruction.sequences instructions).map (rowsOf header)).filter (· ≠ []) := by
  rw [has.decode_eq] at decodes
  have rows : table.rows = (LineInstruction.sequences instructions).flatMap (rowsOf header) := by
    rw [(contents_of_ofFinal decodes).2.2, LineRegisters.emissions_eq_flatMap, List.map_flatMap]
    rfl
  rw [rows]
  exact sequences_flatMap_rowsOf (LineInstruction.sequences_ended instructions)
    fun part => LineInstruction.run_of_mem_sequences

/-- Addresses rise within a sequence, up to and including its end. A program makes its rows part by
part, and each part that has rows makes one sequence of the table. If behind the first of these rows
no instruction sets an address and none overflows, the rows are in order; a search in them answers
as a search in an interval does. -/
theorem rows_ascend :
    (∀ (header : LineHeader) (instructions : List LineInstruction),
      ((LineState.initial header).run header instructions).rows.toList =
        (LineInstruction.sequences instructions).flatMap
          (LineRegisters.emissions header (.initial header)) ∧
      ∀ part ∈ LineInstruction.sequences instructions,
        LineRegisters.SteadyBehindFirst header (.initial header) part →
        (LineRegisters.emissions header (.initial header) part).Pairwise
          (·.address ≤ ·.address)) ∧
    ∀ (lines opcodes : Bytes) (offset : Nat) (addressSize : UInt8) (header : LineHeader)
      (instructions : List LineInstruction) (table : LineTable),
      HasProgram lines offset addressSize header opcodes instructions →
      decode lines offset addressSize = .ok table →
      sequences table.rows =
        ((LineInstruction.sequences instructions).map (rowsOf header)).filter (· ≠ []) ∧
      (∀ part ∈ LineInstruction.sequences instructions,
        LineRegisters.SteadyBehindFirst header (.initial header) part →
        (rowsOf header part).Ordered ∧
        ∀ address, findRow? address (rowsOf header part) =
          if (rowsOf header part).Covers address then (rowsOf header part).rowAt? address
          else none) ∧
      ((∀ part ∈ LineInstruction.sequences instructions,
          LineRegisters.SteadyBehindFirst header (.initial header) part) →
        ∀ sequence ∈ sequences table.rows, sequence.Ordered) := by
  refine ⟨fun header instructions => ⟨?_, fun part member => ?_⟩, ?_⟩
  · rw [LineState.run_initial_rows]
    exact LineRegisters.emissions_eq_flatMap header instructions
  · exact LineRegisters.emissions_ordered (LineInstruction.run_of_mem_sequences member)
  · intro lines opcodes offset addressSize header instructions table has decodes
    have ordered : ∀ part ∈ LineInstruction.sequences instructions,
        LineRegisters.SteadyBehindFirst header (.initial header) part →
          (rowsOf header part).Ordered := fun part member =>
      rowsOf_ordered (LineInstruction.run_of_mem_sequences member)
    have cut := has.sequences_eq decodes
    refine ⟨cut, fun part member steady => ⟨ordered part member steady, fun address => ?_⟩, ?_⟩
    · exact findRow?_sequence (rowsOf_run (LineInstruction.run_of_mem_sequences member))
        (ordered part member steady)
    · intro steady sequence member
      rw [cut] at member
      obtain ⟨part, inside, rfl⟩ := List.mem_map.mp (List.mem_of_mem_filter member)
      exact ordered part inside (steady part inside)

/-- A program of two sequences, the later one below the earlier one. Addresses rise in both, by all
kinds of steps, in words of three operations. -/
def risingProgram : LineProgramBytes :=
  { wordProgram with
    opcodes := [0, 9, 2, 0, 1, 0, 0, 0, 0, 0, 0, 1, 2, 2, 1, 2, 5, 20, 9, 4, 0, 0, 1, 1] ++
      [0, 9, 2, 16, 0, 0, 0, 0, 0, 0, 0, 1, 8, 0, 1, 1] }

def risingHeader : LineHeader := { wordHeader with unitLength := 68 }

def risingInstructions : List LineInstruction :=
  [.setAddress 0x100, .copy, .advanceAddress 2, .copy, .advanceAddress 5, .special 10,
    .fixedAdvance 4, .endSequence] ++ [.setAddress 0x10, .copy, .addConstant, .endSequence]

theorem hasProgram_rising :
    HasProgram (risingProgram.between [] [9]) 0 8 risingHeader risingProgram.opcodes
      risingInstructions :=
  ⟨risingProgram.window 0, (risingProgram.window 0).after risingProgram.opcodes [],
    by decide +kernel, rfl, by decide +kernel⟩

def risingTable : LineTable where
  header := risingHeader
  paths := ["a"]
  rows := rowsOf risingHeader risingInstructions
  file_lt := by decide +kernel

theorem rows_ascend_rising :
    (risingTable.rows.map (·.address) = [0x100, 0x100, 0x118, 0x11c, 0x10, 0xb0]) ∧
    ∀ sequence ∈ sequences risingTable.rows, sequence.Ordered := by
  obtain ⟨-, -, ordered⟩ := rows_ascend.2 (risingProgram.between [] [9]) risingProgram.opcodes 0 8
    risingHeader risingInstructions risingTable hasProgram_rising (by decide +kernel)
  exact ⟨by decide +kernel, ordered (by decide +kernel)⟩

end LineTable

end Symbolication
