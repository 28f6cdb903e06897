import Symbolication.Proofs.Line.Composition

/-!
A run of the line machine in its three parts. The registers go their way whatever files and rows
there are; an instruction declares at most one file and emits at most one row, which is a copy of
registers; and the rows of a run are those that its instructions emit, in order.
-/

namespace Symbolication

namespace LineInstruction

/-- Whether the instruction emits a row. -/
def emits : LineInstruction → Bool
  | .special _ | .copy | .endSequence => true
  | _ => false

/-- Whether the instruction ends a sequence. -/
def ends : LineInstruction → Bool
  | .endSequence => true
  | _ => false

theorem eq_endSequence {instruction : LineInstruction} (ends : instruction.ends = true) :
    instruction = .endSequence := by
  cases instruction with
  | endSequence => rfl
  | _ => cases ends

end LineInstruction

namespace LineRegisters

variable {header : LineHeader} {registers row : LineRegisters} {instruction : LineInstruction}
  {instructions first second : List LineInstruction}

/-- The registers behind an instruction. -/
def after (header : LineHeader) (registers : LineRegisters) (instruction : LineInstruction) :
    LineRegisters :=
  (LineState.execute header { registers, files := #[], rows := #[] } instruction).registers

/-- The registers that an instruction emits. A special opcode makes its advances first. -/
def emission? (header : LineHeader) (registers : LineRegisters) :
    LineInstruction → Option LineRegisters
  | .special adjusted =>
      some ((registers.advance header (specialOperations header adjusted)).advanceLine
        (specialLines header adjusted))
  | .copy => some registers
  | .endSequence => some { registers with endSequence := true }
  | _ => none

def afterAll (header : LineHeader) (registers : LineRegisters)
    (instructions : List LineInstruction) : LineRegisters :=
  instructions.foldl (after header) registers

/-- The rows of instructions that run one after the other. -/
def emissions (header : LineHeader) : LineRegisters → List LineInstruction → List LineRegisters
  | _, [] => []
  | registers, instruction :: instructions =>
      (registers.emission? header instruction).toList ++
        emissions header (registers.after header instruction) instructions

theorem isSome_emission? : (registers.emission? header instruction).isSome = instruction.emits := by
  cases instruction <;> rfl

theorem emission?_eq_none (silent : instruction.emits = false) :
    registers.emission? header instruction = none := by
  rw [← Option.isNone_iff_eq_none, ← Option.not_isSome, isSome_emission?, silent]
  rfl

/-- Within a sequence, an instruction leaves the registers that it emits, less what holds for one
row only. -/
theorem after_of_emission (emitted : registers.emission? header instruction = some row)
    (runs : instruction.ends = false) : registers.after header instruction = row.afterRow := by
  cases instruction with
  | special adjusted =>
      cases emitted
      rfl
  | copy =>
      cases emitted
      rfl
  | endSequence => cases runs
  | _ => cases emitted

theorem length_emissions :
    (emissions header registers instructions).length =
      instructions.countP LineInstruction.emits := by
  induction instructions generalizing registers with
  | nil => rfl
  | cons instruction instructions induction =>
      rw [emissions, List.length_append, induction, List.countP_cons, ← isSome_emission?,
        Nat.add_comm]
      cases registers.emission? header instruction <;> rfl

theorem emissions_append :
    emissions header registers (first ++ second) =
      emissions header registers first ++
        emissions header (registers.afterAll header first) second := by
  induction first generalizing registers with
  | nil => rfl
  | cons instruction first induction =>
      rw [List.cons_append, emissions, emissions, induction, List.append_assoc]
      rfl

end LineRegisters

namespace LineState

variable {header : LineHeader} {state : LineState} {instructions : List LineInstruction}

theorem execute_registers (instruction : LineInstruction) :
    (state.execute header instruction).registers = state.registers.after header instruction := by
  cases instruction <;> rfl

theorem execute_rows (instruction : LineInstruction) :
    (state.execute header instruction).rows.toList =
      state.rows.toList ++ (state.registers.emission? header instruction).toList := by
  cases instruction with
  | special adjusted => exact Array.toList_push
  | copy => exact Array.toList_push
  | endSequence => exact Array.toList_push
  | _ => exact (List.append_nil _).symm

theorem run_registers :
    (state.run header instructions).registers =
      state.registers.afterAll header instructions := by
  induction instructions generalizing state with
  | nil => rfl
  | cons instruction instructions induction =>
      change ((state.execute header instruction).run header instructions).registers = _
      rw [induction, execute_registers]
      rfl

/-- A run emits the rows of its instructions behind those there are. -/
theorem run_rows :
    (state.run header instructions).rows.toList =
      state.rows.toList ++ state.registers.emissions header instructions := by
  induction instructions generalizing state with
  | nil => exact (List.append_nil _).symm
  | cons instruction instructions induction =>
      change ((state.execute header instruction).run header instructions).rows.toList = _
      rw [induction, execute_rows, execute_registers, List.append_assoc]
      rfl

/-- The rows of a program. -/
theorem run_initial_rows :
    ((initial header).run header instructions).rows.toList =
      LineRegisters.emissions header (.initial header) instructions :=
  run_rows

end LineState

end Symbolication
