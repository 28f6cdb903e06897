import Symbolication.Proofs.Line.Emission
import Symbolication.Proofs.Line.Expansion

/-!
Advances of the address. An address and an operation index count the operations of a program in
words of `maximumOperations` each. The index stays below that number, so with one operation to a
word it is zero; and because it carries what a step leaves over, steps one behind the other come to
the same place as their sum.
-/

namespace Symbolication

namespace LineRegisters

variable {header : LineHeader} {registers : LineRegisters} {operations : UInt64}
  {instructions : List LineInstruction}

/-- The operation is one of those that a word has. -/
def InWord (header : LineHeader) (registers : LineRegisters) : Prop :=
  registers.operationIndex.toNat < header.maximumOperations.toNat

/-- The advance of a machine with any number of operations to a word. -/
def advanceInWords (header : LineHeader) (operations : UInt64) (registers : LineRegisters) :
    LineRegisters :=
  let total := registers.operationIndex + operations
  { registers with
    address := registers.address +
      header.minimumInstructionLength.toUInt64 * (total / header.maximumOperations.toUInt64)
    operationIndex := total % header.maximumOperations.toUInt64 }

theorem initial_inWord (nonzero : header.maximumOperations ≠ 0) : (initial header).InWord header :=
  one_le_toNat_of_ne_zero nonzero

theorem advance_inWord (inWord : registers.InWord header) :
    (registers.advance header operations).InWord header := by
  unfold advance
  dsimp only
  split
  · exact inWord
  · change ((registers.operationIndex + operations) % header.maximumOperations.toUInt64).toNat < _
    rw [UInt64.toNat_mod, UInt8.toNat_toUInt64]
    exact Nat.mod_lt _ (Nat.zero_lt_of_lt inWord)

theorem operationIndex_eq_zero (single : header.maximumOperations = 1)
    (inWord : registers.InWord header) : registers.operationIndex = 0 := by
  unfold InWord at inWord
  rw [single] at inWord
  exact UInt64.toNat_inj.mp (Nat.lt_one_iff.mp inWord)

/-- With one operation to a word, the general advance is the simple one. -/
theorem advance_eq_advanceInWords (inWord : registers.InWord header) :
    registers.advance header operations = registers.advanceInWords header operations := by
  unfold advance advanceInWords
  dsimp only
  split
  · rename_i single
    have index : registers.operationIndex = 0 :=
      operationIndex_eq_zero (UInt8.toUInt64_inj.mp single) inWord
    rw [single, index, UInt64.zero_add, UInt64.div_one, UInt64.mod_one]
  · rfl

theorem div_carried (total more words : Nat) :
    total / words + (total % words + more) / words = (total + more) / words := by
  rcases Nat.eq_zero_or_pos words with rfl | positive
  · simp
  · have parts : total + more = words * (total / words) + (total % words + more) := by
      rw [← Nat.add_assoc, Nat.div_add_mod]
    rw [parts, Nat.mul_add_div positive]

theorem toNat_sum {index first second : UInt64}
    (fits : index.toNat + first.toNat + second.toNat < 2 ^ 64) :
    (index + (first + second)).toNat = index.toNat + first.toNat + second.toNat := by
  rw [← UInt64.add_assoc, UInt64.toNat_add, UInt64.toNat_add, Nat.mod_add_mod,
    Nat.mod_eq_of_lt fits]

/-- Where the sum of all fits, so does what a step leaves over with the next step. -/
theorem toNat_carried {index first second : UInt64} (words : UInt64)
    (fits : index.toNat + first.toNat + second.toNat < 2 ^ 64) :
    ((index + first) % words + second).toNat =
      (index.toNat + first.toNat) % words.toNat + second.toNat := by
  have less : (index.toNat + first.toNat) % words.toNat ≤ index.toNat + first.toNat :=
    Nat.mod_le _ _
  have started : (index + first).toNat = index.toNat + first.toNat := by
    rw [UInt64.toNat_add, Nat.mod_eq_of_lt (by omega)]
  rw [UInt64.toNat_add, UInt64.toNat_mod, started, Nat.mod_eq_of_lt (by omega)]

theorem remainder_carried {index first second : UInt64} (words : UInt64)
    (fits : index.toNat + first.toNat + second.toNat < 2 ^ 64) :
    ((index + first) % words + second) % words = (index + (first + second)) % words := by
  apply UInt64.toNat_inj.mp
  rw [UInt64.toNat_mod, UInt64.toNat_mod, toNat_carried words fits, toNat_sum fits,
    Nat.mod_add_mod]

theorem quotient_carried {index first second : UInt64} (words : UInt64)
    (fits : index.toNat + first.toNat + second.toNat < 2 ^ 64) :
    (index + first) / words + ((index + first) % words + second) / words =
      (index + (first + second)) / words := by
  have started : (index + first).toNat = index.toNat + first.toNat := by
    rw [UInt64.toNat_add, Nat.mod_eq_of_lt (by omega)]
  have below : (index.toNat + first.toNat + second.toNat) / words.toNat < 2 ^ 64 :=
    Nat.lt_of_le_of_lt (Nat.div_le_self _ _) fits
  apply UInt64.toNat_inj.mp
  rw [UInt64.toNat_add, UInt64.toNat_div, UInt64.toNat_div, UInt64.toNat_div,
    toNat_carried words fits, toNat_sum fits, started, div_carried, Nat.mod_eq_of_lt below]

/-- What the first step leaves over is carried into the second one. -/
theorem advance_advance {first second : UInt64}
    (fits : registers.operationIndex.toNat + first.toNat + second.toNat < 2 ^ 64) :
    (registers.advance header first).advance header second =
      registers.advance header (first + second) := by
  unfold advance
  dsimp only
  split
  · simp only [UInt64.add_assoc, UInt64.mul_add]
  · rw [remainder_carried _ fits, UInt64.add_assoc, ← UInt64.mul_add, quotient_carried _ fits]

theorem operationIndex_advance_le
    (fits : registers.operationIndex.toNat + operations.toNat < 2 ^ 64) :
    (registers.advance header operations).operationIndex.toNat ≤
      registers.operationIndex.toNat + operations.toNat := by
  unfold advance
  dsimp only
  split
  · exact Nat.le_add_right _ _
  · change ((registers.operationIndex + operations) % header.maximumOperations.toUInt64).toNat ≤ _
    rw [UInt64.toNat_mod, UInt64.toNat_add, Nat.mod_eq_of_lt fits]
    exact Nat.mod_le _ _

theorem advance_zero (inWord : registers.InWord header) :
    registers.advance header 0 = registers := by
  have quotient : registers.operationIndex / header.maximumOperations.toUInt64 = 0 := by
    apply UInt64.toNat_inj.mp
    rw [UInt64.toNat_div, UInt8.toNat_toUInt64]
    exact Nat.div_eq_of_lt inWord
  have remainder : registers.operationIndex % header.maximumOperations.toUInt64 =
      registers.operationIndex := by
    apply UInt64.toNat_inj.mp
    rw [UInt64.toNat_mod, UInt8.toNat_toUInt64]
    exact Nat.mod_eq_of_lt inWord
  rw [advance_eq_advanceInWords inWord]
  unfold advanceInWords
  dsimp only
  rw [UInt64.add_zero, quotient, remainder, UInt64.mul_zero, UInt64.add_zero]

/-- Only advances move the index, and each of them leaves it in the word. -/
theorem InWord.after (inWord : registers.InWord header) (instruction : LineInstruction) :
    (registers.after header instruction).InWord header := by
  have positive : 0 < header.maximumOperations.toNat := Nat.zero_lt_of_lt inWord
  cases instruction with
  | special adjusted => exact advance_inWord inWord
  | advanceAddress operations => exact advance_inWord inWord
  | addConstant => exact advance_inWord inWord
  | fixedAdvance delta => exact positive
  | setAddress address => exact positive
  | endSequence => exact positive
  | _ => exact inWord

theorem InWord.emission (inWord : registers.InWord header) {instruction : LineInstruction}
    {row : LineRegisters} (emitted : registers.emission? header instruction = some row) :
    row.InWord header := by
  cases ends : instruction.ends with
  | true =>
      rw [LineInstruction.eq_endSequence ends] at emitted
      cases emitted
      exact inWord
  | false =>
      have moved := inWord.after instruction
      rw [after_of_emission emitted ends] at moved
      exact moved

theorem InWord.afterAll (inWord : registers.InWord header) :
    (registers.afterAll header instructions).InWord header := by
  induction instructions generalizing registers with
  | nil => exact inWord
  | cons instruction instructions induction => exact induction (inWord.after instruction)

theorem InWord.emissions (inWord : registers.InWord header) :
    ∀ row ∈ registers.emissions header instructions, row.InWord header := by
  induction instructions generalizing registers with
  | nil => simp [LineRegisters.emissions]
  | cons instruction instructions induction =>
      rw [LineRegisters.emissions, List.forall_mem_append]
      refine ⟨?_, induction (inWord.after instruction)⟩
      intro row member
      exact inWord.emission (Option.mem_toList.mp member)

end LineRegisters

/-- The operations that steps have in sum. -/
def totalOperations (steps : List UInt64) : Nat :=
  steps.foldr (fun step total => step.toNat + total) 0

namespace LineState

variable {header : LineHeader} {state : LineState} {steps : List UInt64}

/-- A program begins in a word and stays in words. -/
theorem run_initial_inWord (sound : header.Sound) (instructions : List LineInstruction) :
    ((initial header).run header instructions).registers.InWord header := by
  rw [run_registers]
  exact (LineRegisters.initial_inWord sound.maximumOperations).afterAll

/-- Steps one behind the other come to the same state as one step of their sum. -/
theorem run_advances (inWord : state.registers.InWord header)
    (fits : state.registers.operationIndex.toNat + totalOperations steps < 2 ^ 64) :
    state.run header (steps.map .advanceAddress) =
      state.run header [.advanceAddress (UInt64.ofNat (totalOperations steps))] := by
  induction steps generalizing state with
  | nil =>
      have stays : state.registers.advance header 0 = state.registers :=
        LineRegisters.advance_zero inWord
      change state = { state with registers := state.registers.advance header 0 }
      rw [stays]
  | cons step steps induction =>
      have sum : totalOperations (step :: steps) = step.toNat + totalOperations steps := rfl
      rw [sum] at fits ⊢
      let next := state.execute header (.advanceAddress step)
      have index : next.registers.operationIndex.toNat ≤
          state.registers.operationIndex.toNat + step.toNat :=
        LineRegisters.operationIndex_advance_le (by omega)
      have others : next.run header (steps.map .advanceAddress) =
          next.run header [.advanceAddress (UInt64.ofNat (totalOperations steps))] :=
        induction (LineRegisters.advance_inWord inWord) (by omega)
      have rest : (UInt64.ofNat (totalOperations steps)).toNat = totalOperations steps :=
        UInt64.toNat_ofNat_of_lt' (by change _ < 2 ^ 64; omega)
      have whole : step + UInt64.ofNat (totalOperations steps) =
          UInt64.ofNat (step.toNat + totalOperations steps) := by
        rw [UInt64.ofNat_add, UInt64.ofNat_toNat]
      have carried : (state.registers.advance header step).advance header
            (UInt64.ofNat (totalOperations steps)) =
          state.registers.advance header (step + UInt64.ofNat (totalOperations steps)) :=
        LineRegisters.advance_advance (by rw [rest]; omega)
      change next.run header (steps.map .advanceAddress) =
        { state with registers := state.registers.advance header _ }
      rw [others, ← whole, ← carried]
      rfl

end LineState

namespace LineInstruction

variable {header : LineHeader} {addressSize : UInt8}

theorem spells_advances (standard : 2 < header.opcodeBase) {encodings : List Bytes}
    {steps : List UInt64}
    (encode : List.Forall₂ (fun encoding step => Leb128.EncodesUnsigned encoding step.toNat)
      encodings steps) :
    Spells header addressSize (encodings.flatMap ([2] ++ ·)) (steps.map .advanceAddress) := by
  induction encode with
  | nil => exact spells_nil
  | cons encodes _ induction => exact (spells_advanceAddress standard encodes).append induction

end LineInstruction

namespace LineTable

/-- The operation index stays below the number of operations that a word has, whatever has been run;
so it is zero where there is one of them, and the simple advance is the general one. What a step
leaves over is carried, so an advance may be split into steps: whatever follows them runs on from
the same state, and the rows of the table are the same. -/
theorem advances_add_up (addressSize : UInt8) :
    (∀ (lines : Bytes) (offset : Nat) (header : LineHeader) (window : Cursor),
      LineHeader.decoder.runAt .lines lines offset = .ok (header, window) →
      ∀ (instructions : List LineInstruction) (state : LineState),
        (LineState.initial header).run header instructions = state →
        state.registers.operationIndex.toNat < header.maximumOperations.toNat ∧
        (∀ row ∈ state.rows, row.operationIndex.toNat < header.maximumOperations.toNat) ∧
        (header.maximumOperations = 1 → state.registers.operationIndex = 0) ∧
        (∀ operations, state.registers.advance header operations =
          state.registers.advanceInWords header operations) ∧
        ∀ (steps : List UInt64) (others : List LineInstruction),
          state.registers.operationIndex.toNat + totalOperations steps < 2 ^ 64 →
          state.run header (steps.map .advanceAddress ++ others) =
            state.run header (.advanceAddress (UInt64.ofNat (totalOperations steps)) :: others)) ∧
    (∀ (header : LineHeader) (registers : LineRegisters) (first second : UInt64),
      registers.operationIndex.toNat + first.toNat + second.toNat < 2 ^ 64 →
      (registers.advance header first).advance header second =
        registers.advance header (first + second)) ∧
    ∀ (program : LineProgramBytes) (before behind : Bytes) (header : LineHeader)
      (instructions : List LineInstruction),
      HasProgram (program.between before behind) before.length addressSize header
        program.opcodes instructions →
      2 < header.opcodeBase →
      ∀ (encodings : List Bytes) (steps : List UInt64) (whole following : Bytes),
        List.Forall₂ (fun encoding step => Leb128.EncodesUnsigned encoding step.toNat)
          encodings steps →
        Leb128.EncodesUnsigned whole (totalOperations steps) →
        ((LineState.initial header).run header instructions).registers.operationIndex.toNat +
          totalOperations steps < 2 ^ 64 →
        (program.followedBy (encodings.flatMap ([2] ++ ·) ++ following)).Short →
        (program.followedBy (([2] ++ whole) ++ following)).Short →
        outcome (decode ((program.followedBy
            (encodings.flatMap ([2] ++ ·) ++ following)).between before behind)
            before.length addressSize) =
          outcome (decode ((program.followedBy (([2] ++ whole) ++ following)).between before behind)
            before.length addressSize) := by
  refine ⟨?_, fun _ _ _ _ => LineRegisters.advance_advance, ?_⟩
  · rintro lines offset header window headerReads instructions state rfl
    have sound := LineHeader.sound_of_runAt headerReads
    have inWord := LineState.run_initial_inWord sound instructions
    refine ⟨inWord, ?_, fun single => LineRegisters.operationIndex_eq_zero single inWord,
      fun operations => LineRegisters.advance_eq_advanceInWords inWord, ?_⟩
    · intro row member
      rw [← Array.mem_toList_iff, LineState.run_initial_rows] at member
      exact (LineRegisters.initial_inWord sound.maximumOperations).emissions row member
    · intro steps others fits
      rw [LineState.run_append, LineState.run_advances inWord fits]
      rfl
  · intro program before behind header instructions has standard encodings steps whole following
      encode encodesWhole fits short shortWhole
    have total : (UInt64.ofNat (totalOperations steps)).toNat = totalOperations steps :=
      UInt64.toNat_ofNat_of_lt' (by change _ < 2 ^ 64; omega)
    rw [← total] at encodesWhole
    exact has.decode_alike (LineInstruction.spells_advances standard encode)
      (LineInstruction.spells_advanceAddress standard encodesWhole)
      (LineState.run_advances (LineState.run_initial_inWord has.sound instructions) fits) short
        shortWhole

/-- A program for words of three operations that stands in the middle of one. -/
def wordProgram : LineProgramBytes where
  version := 4
  fields := [8, 3, 1, 255, 4, 10, 0, 1, 1, 1, 1, 0, 0, 0, 1, 0, 97, 0, 0, 0, 0, 0]
  opcodes := [2, 2]

def wordHeader : LineHeader where
  offset := 0
  unitLength := 30
  version := .four
  headerLength := 22
  minimumInstructionLength := 8
  maximumOperations := 3
  defaultIsStatement := true
  lineBase := -1
  lineRange := 4
  opcodeBase := 10
  operandCounts := [0, 1, 1, 1, 1, 0, 0, 0, 1]
  directories := []
  files := [{ name := "a", directory := 0, modified := 0, size := 0 }]

theorem headerReads_word : LineHeader.decoder.runAt .lines (wordProgram.between [] [9]) 0 =
    .ok (wordHeader, wordProgram.window 0) := by
  decide +kernel

theorem hasProgram_word :
    HasProgram (wordProgram.between [] [9]) 0 8 wordHeader wordProgram.opcodes
      [.advanceAddress 2] :=
  ⟨wordProgram.window 0, (wordProgram.window 0).after wordProgram.opcodes [], headerReads_word, rfl,
    by decide +kernel⟩

/-- Two operations are left over from before, so that seven more fill three words, and do so in two
steps as in one. -/
theorem advances_add_up_word :
    ((LineState.initial wordHeader).run wordHeader
        [.advanceAddress 2]).registers.operationIndex = 2 ∧
    ((LineState.initial wordHeader).run wordHeader [.advanceAddress 2]).run wordHeader
        [.advanceAddress 2, .advanceAddress 5, .copy] =
      ((LineState.initial wordHeader).run wordHeader [.advanceAddress 2]).run wordHeader
        [.advanceAddress 7, .copy] ∧
    (((LineRegisters.initial wordHeader).advance wordHeader 2).advance wordHeader 7).address = 24 ∧
    outcome (decode ((wordProgram.followedBy
        ([[2], [5]].flatMap ([2] ++ ·) ++ [1, 0, 1, 1])).between [] [9]) 0 8) =
      outcome (decode ((wordProgram.followedBy (([2] ++ [7]) ++ [1, 0, 1, 1])).between [] [9])
        0 8) := by
  obtain ⟨-, -, -, -, split⟩ := (advances_add_up 8).1 (wordProgram.between [] [9]) 0 wordHeader _
    headerReads_word [.advanceAddress 2] _ rfl
  have encode : List.Forall₂
      (fun encoding (step : UInt64) => Leb128.EncodesUnsigned encoding step.toNat)
      [[2], [5]] [2, 5] :=
    .cons ⟨2, by decide +kernel, rfl⟩ (.cons ⟨5, by decide +kernel, rfl⟩ .nil)
  refine ⟨rfl, split [2, 5] [.copy] (by decide), ?_, ?_⟩
  · rw [(advances_add_up 8).2.1 wordHeader _ 2 7 (by decide)]
    rfl
  · exact (advances_add_up 8).2.2 wordProgram [] [9] wordHeader _ hasProgram_word (by decide) _ _
      [7] [1, 0, 1, 1] encode ⟨7, by decide +kernel, rfl⟩ (by decide) (by decide) (by decide)

end LineTable

end Symbolication
