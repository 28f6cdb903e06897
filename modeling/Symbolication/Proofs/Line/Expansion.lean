import Symbolication.Proofs.Line.Composition

/-!
Opcodes that say the same as others. A special opcode is an advance of the address, one of the line
and a copy in one byte, and the constant advance is the first of these for the last special opcode.
Opcodes that lead from every state to the same one can stand for each other in any program.
-/

namespace Symbolication

namespace LineRegisters

variable {header : LineHeader} {opcode : UInt8}

theorem toNat_specialOperations (special : header.opcodeBase ≤ opcode) :
    (specialOperations header (opcode - header.opcodeBase)).toNat =
      (opcode.toNat - header.opcodeBase.toNat) / header.lineRange.toNat := by
  unfold specialOperations
  rw [UInt8.toNat_toUInt64, UInt8.toNat_div, UInt8.toNat_sub_of_le _ _ special]

theorem toInt_toInt64 (byte : UInt8) : byte.toUInt64.toInt64.toInt = byte.toNat := by
  have small := byte.toNat_lt
  have positive : 2 * byte.toUInt64.toBitVec.toNat < 2 ^ 64 := by
    rw [UInt64.toNat_toBitVec, UInt8.toNat_toUInt64]
    omega
  exact (BitVec.toInt_eq_toNat_of_lt positive).trans (congrArg Nat.cast byte.toNat_toUInt64)

/-- The lines of a special opcode are few, so nothing wraps. -/
theorem toInt_specialLines (special : header.opcodeBase ≤ opcode) :
    (specialLines header (opcode - header.opcodeBase)).toInt =
      header.lineBase.toInt +
        ((opcode.toNat - header.opcodeBase.toNat) % header.lineRange.toNat : Nat) := by
  have small := ((opcode - header.opcodeBase) % header.lineRange).toNat_lt
  have baseAbove := header.lineBase.le_toInt
  have baseBelow := header.lineBase.toInt_lt
  unfold specialLines
  rw [Int64.toInt_add, Int8.toInt_toInt64, toInt_toInt64, Int.bmod_eq_of_le (by omega) (by omega),
    UInt8.toNat_mod, UInt8.toNat_sub_of_le _ _ special]

end LineRegisters

namespace LineState

variable {header : LineHeader} {state : LineState}

theorem run_special (adjusted : UInt8) :
    state.run header [.special adjusted] =
      state.run header [.advanceAddress (LineRegisters.specialOperations header adjusted),
        .advanceLine (LineRegisters.specialLines header adjusted), .copy] := rfl

theorem run_addConstant :
    state.run header [.addConstant] =
      state.run header [.advanceAddress
        (LineRegisters.specialOperations header (255 - header.opcodeBase))] := rfl

/-- The constant advance moves the address and the operation index as the last special opcode does,
and nothing else. -/
theorem execute_addConstant :
    state.execute header .addConstant =
      { state with
        registers := { state.registers with
          address :=
            (state.execute header (.special (255 - header.opcodeBase))).registers.address
          operationIndex :=
            (state.execute header
              (.special (255 - header.opcodeBase))).registers.operationIndex } } := by
  simp only [execute, update, emit, LineRegisters.advanceLine, LineRegisters.afterRow,
    LineRegisters.advance]
  split <;> rfl

end LineState

namespace LineInstruction

variable {header : LineHeader} {addressSize : UInt8} {first second : Bytes}
  {instructions others : List LineInstruction} {instruction : LineInstruction}

/-- Whether the opcodes are these instructions, wherever they stand. -/
def Spells (header : LineHeader) (addressSize : UInt8) (opcodes : Bytes)
    (instructions : List LineInstruction) : Prop :=
  ∀ cursor, (program header addressSize).Reads cursor opcodes [] instructions

theorem spells_nil : Spells header addressSize [] [] := by
  intro cursor ahead
  have stays : cursor.after [] [] = cursor := Cursor.after_nil ahead
  rw [stays]
  exact Decoder.run_itemsToEnd_nil ahead

theorem Spells.append (spells : Spells header addressSize first instructions)
    (spellsNext : Spells header addressSize second others) :
    Spells header addressSize (first ++ second) (instructions ++ others) := by
  intro cursor ahead
  rw [List.append_nil] at ahead
  have alone := (spells (cursor.windowOver first)).run (List.append_nil first).symm
  have next := (spellsNext (cursor.after first second)).run (List.append_nil second).symm
  rw [Cursor.after_after] at next
  rw [program_append alone ahead]
  change _ <$> (program header addressSize).run (cursor.after first second) = _
  rw [next]
  rfl

theorem spells_single {opcodes : Bytes}
    (reads : ∀ cursor, (Decoder.byte >>= decoder header addressSize).Reads cursor opcodes []
      instruction) : Spells header addressSize opcodes [instruction] := by
  intro cursor ahead
  have step := (reads cursor).run ahead
  have nothing : (cursor.after opcodes []).rest = [] := rfl
  change (Decoder.itemsToEnd _ _ _).run cursor = _
  rw [Decoder.run_itemsToEnd (Decoder.rest_ne_nil_of_run Decoder.byte_consumes step), step]
  dsimp only
  rw [Decoder.run_itemsToEnd_nil nothing]
  rfl

theorem spells_special {opcode : UInt8} (special : header.opcodeBase ≤ opcode) :
    Spells header addressSize [opcode] [.special (opcode - header.opcodeBase)] := by
  apply spells_single
  intro cursor
  apply (Decoder.byte_reads opcode).bind_last
  unfold decoder
  rw [if_pos special]
  exact Decoder.pure_reads _

theorem spells_copy (standard : 1 < header.opcodeBase) :
    Spells header addressSize [1] [.copy] :=
  spells_single fun _ => standard_reads standard (by decide) (Decoder.pure_reads _)

theorem spells_advanceAddress (standard : 2 < header.opcodeBase) {operations : Bytes}
    {number : UInt64} (encodes : Leb128.EncodesUnsigned operations number.toNat) :
    Spells header addressSize ([2] ++ operations) [.advanceAddress number] :=
  spells_single fun _ =>
    standard_reads standard (by decide) ((Decoder.unsigned_reads_number encodes).map _)

theorem spells_advanceLine (standard : 3 < header.opcodeBase) {lines : Bytes} {number : Int64}
    (encodes : Leb128.EncodesSigned lines number.toInt) :
    Spells header addressSize ([3] ++ lines) [.advanceLine number] := by
  obtain ⟨value, decodes, same⟩ := encodes
  cases Int64.toInt_inj.mp same
  exact spells_single fun _ =>
    standard_reads standard (by decide) ((Decoder.signed_reads_encoding decodes).map _)

theorem spells_addConstant (standard : 8 < header.opcodeBase) :
    Spells header addressSize [8] [.addConstant] :=
  spells_single fun _ => standard_reads standard (by decide) (Decoder.pure_reads _)

/-- Opcodes that can stand for each other: from every state, both lead to the same one. -/
def Interchangeable (header : LineHeader) (addressSize : UInt8) (first second : Bytes) : Prop :=
  ∃ instructions others, Spells header addressSize first instructions ∧
    Spells header addressSize second others ∧
      ∀ state : LineState, state.run header instructions = state.run header others

/-- How an opcode is written with an advance of the address, one of the line and a copy. -/
inductive Expands (header : LineHeader) : Bytes → Bytes → Prop where
  | special {opcode : UInt8} {operations lines : Bytes} (standard : 4 ≤ header.opcodeBase)
      (above : header.opcodeBase ≤ opcode)
      (encodesOperations : Leb128.EncodesUnsigned operations
        ((opcode.toNat - header.opcodeBase.toNat) / header.lineRange.toNat))
      (encodesLines : Leb128.EncodesSigned lines (header.lineBase.toInt +
        ((opcode.toNat - header.opcodeBase.toNat) % header.lineRange.toNat : Nat))) :
      Expands header [opcode] (([2] ++ operations) ++ (([3] ++ lines) ++ [1]))
  | constant {operations : Bytes} (standard : 9 ≤ header.opcodeBase)
      (encodesOperations : Leb128.EncodesUnsigned operations
        ((255 - header.opcodeBase.toNat) / header.lineRange.toNat)) :
      Expands header [8] ([2] ++ operations)

theorem Expands.length_le (expands : Expands header first second) :
    first.length ≤ second.length := by
  cases expands with
  | special => simp
  | constant => simp

theorem Expands.interchangeable (expands : Expands header first second) :
    Interchangeable header addressSize first second := by
  cases expands with
  | @special opcode operations lines standard above encodesOperations encodesLines =>
      have below (number : UInt8) (less : number < 4) : number < header.opcodeBase :=
        UInt8.lt_of_lt_of_le less standard
      rw [← LineRegisters.toNat_specialOperations above] at encodesOperations
      rw [← LineRegisters.toInt_specialLines above] at encodesLines
      have advances : Spells header addressSize ([2] ++ operations) _ :=
        spells_advanceAddress (below 2 (by decide)) encodesOperations
      have advancesLine : Spells header addressSize ([3] ++ lines) _ :=
        spells_advanceLine (below 3 (by decide)) encodesLines
      have copies : Spells header addressSize [1] _ := spells_copy (below 1 (by decide))
      exact ⟨_, _, spells_special above, advances.append (advancesLine.append copies),
        fun _ => LineState.run_special _⟩
  | @constant operations standard encodesOperations =>
      have below (number : UInt8) (less : number < 9) : number < header.opcodeBase :=
        UInt8.lt_of_lt_of_le less standard
      have last : header.opcodeBase ≤ 255 :=
        UInt8.le_iff_toNat_le.mpr (Nat.le_of_lt_succ header.opcodeBase.toNat_lt)
      have encodes : Leb128.EncodesUnsigned operations
          (LineRegisters.specialOperations header (255 - header.opcodeBase)).toNat := by
        rw [LineRegisters.toNat_specialOperations last]
        exact encodesOperations
      exact ⟨_, _, spells_addConstant (below 8 (by decide)),
        spells_advanceAddress (below 2 (by decide)) encodes, fun _ => LineState.run_addConstant⟩

end LineInstruction

namespace LineState

variable {header : LineHeader} {addressSize : UInt8} {first second following : Bytes}
  {instructions : List LineInstruction} {opcodes other : Cursor}

/-- Opcodes of known instructions are run, and what follows them runs on. -/
theorem interpret_spelled (spells : LineInstruction.Spells header addressSize first instructions)
    (state : LineState) (ahead : opcodes.rest = first ++ following) :
    state.interpret header addressSize opcodes =
      (state.run header instructions).interpret header addressSize
        (opcodes.after first following) := by
  have alone := (spells (opcodes.windowOver first)).run (List.append_nil first).symm
  have runs : state.interpret header addressSize (opcodes.windowOver first) =
      .ok (state.run header instructions) := by
    unfold interpret
    rw [alone]
    rfl
  exact interpret_append runs ahead

/-- The same opcodes at another place lead to the same state, or fail for the same reason. -/
theorem interpret_elsewhere (state : LineState) (source : other.source = opcodes.source)
    (same : other.rest = opcodes.rest) :
    (state.interpret header addressSize opcodes).mapError DecodeError.fault =
      (state.interpret header addressSize other).mapError DecodeError.fault := by
  unfold interpret
  cases reads : (LineInstruction.program header addressSize).run opcodes with
  | error error =>
      obtain ⟨offset, fails⟩ := LineInstruction.program_fails_elsewhere reads source same
      rw [fails]
      rfl
  | ok result =>
      obtain ⟨next, reads'⟩ := LineInstruction.program_elsewhere reads same
      rw [reads']
      rfl

/-- Opcodes that lead from here to the same state can stand for each other here. -/
theorem interpret_alike {others : List LineInstruction} {state : LineState}
    (spells : LineInstruction.Spells header addressSize first instructions)
    (spellsOthers : LineInstruction.Spells header addressSize second others)
    (same : state.run header instructions = state.run header others)
    (source : other.source = opcodes.source)
    (ahead : opcodes.rest = first ++ following) (aheadOther : other.rest = second ++ following) :
    (state.interpret header addressSize opcodes).mapError DecodeError.fault =
      (state.interpret header addressSize other).mapError DecodeError.fault := by
  rw [interpret_spelled spells state ahead, interpret_spelled spellsOthers state aheadOther, same]
  exact interpret_elsewhere _ source rfl

end LineState

namespace LineTable

variable {header : LineHeader} {addressSize : UInt8} {first second : Bytes}
  {instructions : List LineInstruction}

/-- What a program comes to: its rows with the paths and files they refer to, or why it has none. -/
def outcome (result : Except DecodeError LineTable) :
    Except DecodeFault (List LineRow × List String × List FileEntry) :=
  (result.map fun table => (table.rows, table.paths, table.header.files)).mapError
    DecodeError.fault

theorem ofState_parts_eq (header : LineHeader) (final : LineState) :
    (ofState header final).map (fun table => (table.rows, table.paths, table.header.files)) =
      (resolvePaths header.directories final.files.toList >>= fun paths =>
        (fun rows => (rows, paths, final.files.toList)) <$>
          resolveRows paths.length final.rows.toList) := by
  unfold ofState
  dsimp only
  cases resolvePaths header.directories final.files.toList with
  | error fault => rfl
  | ok paths =>
      dsimp only [Bind.bind, Except.bind]
      split
      · rename_i fault failed
        exact congrArg (Functor.map fun rows => (rows, paths, final.files.toList)) failed.symm
      · rename_i rows resolved
        exact congrArg (Functor.map fun rows => (rows, paths, final.files.toList)) resolved.symm

/-- The length of the whole is nothing that a table is made from. -/
theorem outcome_ofFinal (unitLength : Nat) (final : LineState) :
    outcome (ofFinal { header with unitLength } final) = outcome (ofFinal header final) := by
  have parts (header : LineHeader) : outcome (ofFinal header final) =
      ((ofState header final).map fun table =>
        (table.rows, table.paths, table.header.files)).mapError .invalidLineProgram := by
    unfold ofFinal outcome
    cases ofState header final <;> rfl
  rw [parts, parts, ofState_parts_eq, ofState_parts_eq]

theorem outcome_bind_ofFinal (unitLength : Nat) (final : Except DecodeError LineState) :
    outcome (final >>= ofFinal { header with unitLength }) =
      final.mapError DecodeError.fault >>= fun final => outcome (ofFinal header final) := by
  cases final with
  | error error => rfl
  | ok final => exact outcome_ofFinal unitLength final

/-- Opcodes that lead to the same state behind a program can stand for each other there. -/
theorem HasProgram.decode_alike {program : LineProgramBytes} {before behind : Bytes}
    {passed others : List LineInstruction}
    (has : HasProgram (program.between before behind) before.length addressSize header
      program.opcodes instructions)
    (spells : LineInstruction.Spells header addressSize first passed)
    (spellsOthers : LineInstruction.Spells header addressSize second others)
    (same : ((LineState.initial header).run header instructions).run header passed =
      ((LineState.initial header).run header instructions).run header others)
    {following : Bytes} (short : (program.followedBy (first ++ following)).Short)
    (shortOther : (program.followedBy (second ++ following)).Short) :
    outcome (decode ((program.followedBy (first ++ following)).between before behind)
        before.length addressSize) =
      outcome (decode ((program.followedBy (second ++ following)).between before behind)
        before.length addressSize) := by
  rw [has.decode_followedBy short, has.decode_followedBy shortOther, outcome_bind_ofFinal,
    outcome_bind_ofFinal]
  exact congrArg (· >>= fun final => outcome (ofFinal header final))
    (LineState.interpret_alike spells spellsOthers same rfl rfl rfl)

theorem HasProgram.decode_interchanged {program : LineProgramBytes} {before behind : Bytes}
    (has : HasProgram (program.between before behind) before.length addressSize header
      program.opcodes instructions)
    (interchangeable : LineInstruction.Interchangeable header addressSize first second)
    {following : Bytes} (short : (program.followedBy (first ++ following)).Short)
    (shortOther : (program.followedBy (second ++ following)).Short) :
    outcome (decode ((program.followedBy (first ++ following)).between before behind)
        before.length addressSize) =
      outcome (decode ((program.followedBy (second ++ following)).between before behind)
        before.length addressSize) := by
  obtain ⟨_, _, spells, spellsOthers, same⟩ := interchangeable
  exact has.decode_alike spells spellsOthers (same _) short shortOther

/-- Special opcodes are short for what they expand to. In any program that has been read so far, and
from any state, an opcode may be written out: the rows and files are the same, or there are none for
the same reason. The constant advance is one of the address and the operation index alone, as far as
the last special opcode goes. -/
theorem special_opcodes_expand (header : LineHeader) (addressSize : UInt8) :
    (∀ opcodes expansion : Bytes, LineInstruction.Expands header opcodes expansion →
      (∀ (state : LineState) (following : Bytes) (cursor other : Cursor),
        other.source = cursor.source → cursor.rest = opcodes ++ following →
        other.rest = expansion ++ following →
        (state.interpret header addressSize cursor).mapError DecodeError.fault =
          (state.interpret header addressSize other).mapError DecodeError.fault) ∧
      ∀ (program : LineProgramBytes) (before behind following : Bytes)
        (instructions : List LineInstruction),
        HasProgram (program.between before behind) before.length addressSize header
          program.opcodes instructions →
        (program.followedBy (expansion ++ following)).Short →
        outcome (decode ((program.followedBy (opcodes ++ following)).between before behind)
            before.length addressSize) =
          outcome (decode ((program.followedBy (expansion ++ following)).between before behind)
            before.length addressSize)) ∧
      ∀ state : LineState,
        state.execute header .addConstant =
          { state with
            registers := { state.registers with
              address :=
                (state.execute header (.special (255 - header.opcodeBase))).registers.address
              operationIndex :=
                (state.execute header
                  (.special (255 - header.opcodeBase))).registers.operationIndex } } := by
  refine ⟨?_, fun _ => LineState.execute_addConstant⟩
  intro opcodes expansion expands
  constructor
  · intro state following cursor other source ahead aheadOther
    obtain ⟨_, _, spells, spellsOthers, same⟩ := expands.interchangeable
    exact LineState.interpret_alike spells spellsOthers (same state) source ahead aheadOther
  · intro program before behind following instructions has short
    exact has.decode_interchanged expands.interchangeable
      (short.of_length_le (by simpa using expands.length_le)) short

/-- The number of operations has a redundant group. -/
theorem special_opcodes_expand_padded :
    outcome (decode ((declaringProgram.followedBy ([76] ++ [0, 1, 1])).between [9] [7]) 1 8) =
      outcome (decode ((declaringProgram.followedBy
        ((([2] ++ [144, 0]) ++ (([3] ++ [1]) ++ [1])) ++ [0, 1, 1])).between [9] [7]) 1 8) := by
  have expands : LineInstruction.Expands declaringHeader [76]
      (([2] ++ [144, 0]) ++ (([3] ++ [1]) ++ [1])) :=
    .special (by decide) (by decide) ⟨16, by decide +kernel, rfl⟩ ⟨1, by decide +kernel, rfl⟩
  exact ((special_opcodes_expand declaringHeader 8).1 _ _ expands).2 declaringProgram [9] [7]
    [0, 1, 1] declaringInstructions hasProgram_declaring (by decide)

end LineTable

end Symbolication
