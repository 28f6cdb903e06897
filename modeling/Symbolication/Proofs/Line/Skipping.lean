import Symbolication.Proofs.Line.Expansion

/-!
Opcodes that are passed over. An extended opcode tells its length in front of it, so it ends where
it says, however many of its bytes have a meaning; a standard opcode without a meaning has as many
operands as the header lists. Such opcodes can stand anywhere in a program. An extended opcode whose
operand does not fit into its length has no reading at all, whatever follows it.
-/

namespace Symbolication

/-- A file is read from its name and the encodings of its three numbers. -/
theorem FileEntry.exists_encoding_of_run {cursor next : Cursor} {name : String} {file : FileEntry}
    (outcome : (FileEntry.decoder name).run cursor = .ok (file, next)) :
    file.name = name ∧ ∃ directory modified size,
      Leb128.EncodesUnsigned directory file.directory.toNat ∧
      Leb128.EncodesUnsigned modified file.modified.toNat ∧
      Leb128.EncodesUnsigned size file.size.toNat ∧
      cursor.rest = directory ++ (modified ++ size) ++ next.rest := by
  obtain ⟨_, _, directoryReads, outcome⟩ := Decoder.run_bind_eq_ok.mp outcome
  obtain ⟨_, _, modifiedReads, outcome⟩ := Decoder.run_bind_eq_ok.mp outcome
  obtain ⟨_, _, sizeReads, finish⟩ := Decoder.run_bind_eq_ok.mp outcome
  cases finish
  obtain ⟨directory, inDirectory, stands, _⟩ := Decoder.unsigned_of_run directoryReads
  obtain ⟨modified, modifiedAt, standsNext, _⟩ := Decoder.unsigned_of_run modifiedReads
  obtain ⟨size, sized, standsLast, _⟩ := Decoder.unsigned_of_run sizeReads
  refine ⟨rfl, directory, modified, size, inDirectory, modifiedAt, sized, ?_⟩
  simp only [stands, standsNext, standsLast, List.append_assoc]

namespace LineInstruction

variable {header : LineHeader} {addressSize : UInt8} {cursor next : Cursor}
  {bytes length payload following suffix : Bytes} {instruction : LineInstruction}

/-- The bytes of an extended opcode that has a meaning, with those of its operand. -/
inductive Known (addressSize : UInt8) : Bytes → LineInstruction → Prop where
  | endSequence : Known addressSize [1] .endSequence
  | setAddress {width : Width} {address : Bytes} (sized : Width.ofUInt8? addressSize = some width)
      (long : address.length = width.bytes) :
      Known addressSize ([2] ++ address) (.setAddress (UInt64.ofNat (Bytes.littleEndian address)))
  | defineFile {name directory modified size : Bytes} {file : FileEntry} (clean : 0 ∉ name)
      (named : file.name = Utf8.lossyText name)
      (inDirectory : Leb128.EncodesUnsigned directory file.directory.toNat)
      (modifiedAt : Leb128.EncodesUnsigned modified file.modified.toNat)
      (sized : Leb128.EncodesUnsigned size file.size.toNat) :
      Known addressSize ([3] ++ ((name ++ [0]) ++ (directory ++ (modified ++ size))))
        (.defineFile file)
  | setDiscriminator {encoding : Bytes} {discriminator : UInt64}
      (encodes : Leb128.EncodesUnsigned encoding discriminator.toNat) :
      Known addressSize ([4] ++ encoding) (.setDiscriminator discriminator)

/-- What the bytes that an extended opcode has for itself mean. Those behind its operand mean
nothing. -/
inductive Means (addressSize : UInt8) : Bytes → LineInstruction → Prop where
  | nothing : Means addressSize [] .skip
  | unknown {opcode : UInt8} {operands : Bytes} (other : opcode.toNat ∉ [1, 2, 3, 4]) :
      Means addressSize (opcode :: operands) .skip
  | known {used unused : Bytes} {instruction : LineInstruction}
      (known : Known addressSize used instruction) : Means addressSize (used ++ unused) instruction

/-- Opcodes that say nothing to the machine. -/
inductive Unknown (header : LineHeader) : Bytes → Prop where
  | empty {length : Bytes} (measures : Leb128.EncodesUnsigned length 0) :
      Unknown header ([0] ++ length)
  | extended {length : Bytes} {opcode : UInt8} {operands : Bytes}
      (measures : Leb128.EncodesUnsigned length (operands.length + 1))
      (other : opcode.toNat ∉ [1, 2, 3, 4]) :
      Unknown header ([0] ++ (length ++ (opcode :: operands)))
  | standard {opcode count : UInt8} {operands : List Bytes} (beyond : 13 ≤ opcode.toNat)
      (below : opcode < header.opcodeBase)
      (listed : header.operandCounts[opcode.toNat - 1]? = some count)
      (counted : operands.length = count.toNat)
      (encoded : ∀ operand ∈ operands, ∃ number, Leb128.EncodesUnsigned operand number) :
      Unknown header ([opcode] ++ operands.flatten)

/-- Extended opcodes that have a meaning, and end before their operand does. -/
inductive CutShort (addressSize : UInt8) : Bytes → Prop where
  | intro {length payload missing : Bytes} {instruction : LineInstruction}
      (measures : Leb128.EncodesUnsigned length payload.length) (some_payload : payload ≠ [])
      (some_missing : missing ≠ []) (known : Known addressSize (payload ++ missing) instruction) :
      CutShort addressSize ([0] ++ (length ++ payload))

theorem Known.reads (known : Known addressSize bytes instruction) :
    (extended addressSize).Reads cursor bytes suffix instruction := by
  cases known with
  | endSequence => exact (Decoder.byte_reads 1).bind_last (Decoder.pure_reads _)
  | setAddress sized long =>
      apply (Decoder.byte_reads 2).bind
      apply Decoder.Reads.map
      unfold Decoder.address
      rw [sized]
      exact ((Decoder.take_reads long).map Bytes.littleEndian).map UInt64.ofNat
  | @defineFile name directory modified size file clean named inDirectory modifiedAt sized =>
      obtain ⟨fileName, fileDirectory, fileModified, fileSize⟩ := file
      cases named
      apply (Decoder.byte_reads 3).bind
      apply ((Decoder.terminated_reads clean).map Utf8.lossyText).bind
      apply Decoder.Reads.map
      exact (Decoder.unsigned_reads_number inDirectory).bind
        ((Decoder.unsigned_reads_number modifiedAt).bind
          ((Decoder.unsigned_reads_number sized).bind_last (Decoder.pure_reads _)))
  | setDiscriminator encodes =>
      exact (Decoder.byte_reads 4).bind ((Decoder.unsigned_reads_number encodes).map _)

/-- No known opcode is the beginning of another one. -/
theorem Known.eq_of_append {used unused whole missing : Bytes} {other : LineInstruction}
    (known : Known addressSize used instruction) (knownWhole : Known addressSize whole other)
    (stands : used ++ unused ++ missing = whole) : missing = [] := by
  let window : Cursor := .startingAt .lines 0 whole
  -- Both are read from the same bytes, so both leave the same bytes, which are none.
  have reads : (extended addressSize).Reads window used (unused ++ missing) instruction :=
    known.reads
  have readsWhole : (extended addressSize).Reads window whole [] other := knownWhole.reads
  have outcome := readsWhole.run (List.append_nil whole).symm
  rw [reads.run (by rw [← List.append_assoc, stands]; rfl)] at outcome
  injection outcome with same
  have rests : unused ++ missing = [] := congrArg (fun result => result.2.rest) same
  exact (List.append_eq_nil_iff.mp rests).2

theorem means_of_run (outcome : (extended addressSize).run cursor = .ok (instruction, next)) :
    Means addressSize cursor.rest instruction := by
  obtain ⟨opcode, behind, opcodeReads, outcome⟩ := Decoder.run_bind_eq_ok.mp outcome
  obtain ⟨stands, _⟩ := Decoder.byte_of_run opcodeReads
  rw [stands, List.singleton_append]
  have number (value : UInt8) (same : opcode.toNat = value.toNat) : opcode = value :=
    UInt8.toNat_inj.mp same
  split at outcome
  · rename_i same
    cases outcome
    cases number 1 same
    have known : Known addressSize [1] .endSequence := .endSequence
    exact .known known
  · rename_i same
    cases number 2 same
    rw [Decoder.run_map] at outcome
    split at outcome <;> cases outcome
    rename_i reads
    obtain ⟨width, address, sized, long, rfl, operand⟩ := Decoder.address_of_run reads
    have known : Known addressSize ([2] ++ address) _ := .setAddress sized long
    rw [operand]
    exact .known known
  · rename_i same
    cases number 3 same
    obtain ⟨_, _, nameReads, outcome⟩ := Decoder.run_bind_eq_ok.mp outcome
    unfold Decoder.text at nameReads
    rw [Decoder.run_map] at nameReads
    split at nameReads <;> cases nameReads
    rename_i nameReads
    rw [Decoder.run_map] at outcome
    split at outcome <;> cases outcome
    rename_i reads
    obtain ⟨clean, operand⟩ := Decoder.terminated_of_run nameReads
    obtain ⟨named, directory, modified, size, inDirectory, modifiedAt, sized, numbers⟩ :=
      FileEntry.exists_encoding_of_run reads
    rw [operand, numbers]
    have known : Known addressSize _ _ := .defineFile clean named inDirectory modifiedAt sized
    have means : Means addressSize (_ ++ next.rest) _ := .known known
    simpa only [List.append_assoc, List.cons_append, List.nil_append] using means
  · rename_i same
    cases number 4 same
    rw [Decoder.run_map] at outcome
    split at outcome <;> cases outcome
    rename_i reads
    obtain ⟨encoding, encodes, operand, _⟩ := Decoder.unsigned_of_run reads
    have known : Known addressSize ([4] ++ encoding) _ := .setDiscriminator encodes
    rw [operand]
    exact .known known
  · rename_i notOne notTwo notThree notFour
    cases outcome
    exact .unknown (by simpa using ⟨notOne, notTwo, notThree, notFour⟩)

theorem Known.exists_cons (known : Known addressSize bytes instruction) :
    ∃ opcode operand, bytes = opcode :: operand ∧ opcode.toNat ∈ [1, 2, 3, 4] := by
  cases known with
  | endSequence => exact ⟨1, _, rfl, by decide⟩
  | setAddress => exact ⟨2, _, rfl, by decide⟩
  | defineFile => exact ⟨3, _, rfl, by decide⟩
  | setDiscriminator => exact ⟨4, _, rfl, by decide⟩

theorem means_nil_iff : Means addressSize [] instruction ↔ instruction = .skip := by
  constructor
  · intro means
    generalize nothing : ([] : Bytes) = payload at means
    cases means with
    | nothing => rfl
    | unknown other => cases nothing
    | known known =>
        obtain ⟨opcode, operand, rfl, _⟩ := known.exists_cons
        cases nothing
  · rintro rfl
    exact .nothing

/-- What has a meaning and begins like a known opcode holds all of it. -/
theorem Means.nothing_missing {missing : Bytes} {other : LineInstruction}
    (means : Means addressSize payload instruction) (some_payload : payload ≠ [])
    (known : Known addressSize (payload ++ missing) other) : missing = [] := by
  obtain ⟨knownOpcode, operand, stands, isKnown⟩ := known.exists_cons
  cases means with
  | nothing => exact absurd rfl some_payload
  | unknown unknown =>
      cases stands
      exact absurd isKnown unknown
  | known knownPart => exact knownPart.eq_of_append known rfl

/-- An extended opcode is read from its own bytes exactly as what they mean. -/
theorem run_extended_iff (some_bytes : cursor.rest ≠ []) :
    (∃ final, (extended addressSize).run cursor = .ok (instruction, final)) ↔
      Means addressSize cursor.rest instruction := by
  constructor
  · rintro ⟨final, outcome⟩
    exact means_of_run outcome
  · intro means
    generalize ahead : cursor.rest = payload at means some_bytes
    cases means with
    | nothing => exact absurd rfl some_bytes
    | @unknown opcode operands other =>
        have skips : (extended addressSize).Reads cursor [opcode] operands .skip := by
          apply (Decoder.byte_reads opcode).bind_last
          simp only [List.mem_cons, List.not_mem_nil, or_false, not_or] at other
          split
          · exact absurd ‹_› other.1
          · exact absurd ‹_› other.2.1
          · exact absurd ‹_› other.2.2.1
          · exact absurd ‹_› other.2.2.2
          · exact Decoder.pure_reads _
        exact ⟨_, skips.run ahead⟩
    | known known => exact ⟨_, known.reads.run ahead⟩

/-- Behind its length, an extended opcode is what its own bytes mean, and it ends with them. -/
theorem run_extendedWithLength_iff (measures : Leb128.EncodesUnsigned length payload.length)
    (ahead : cursor.rest = length ++ (payload ++ following)) :
    (extendedWithLength addressSize).run cursor = .ok (instruction, next) ↔
      Means addressSize payload instruction ∧
        next = cursor.after (length ++ payload) following := by
  unfold extendedWithLength
  rw [(Decoder.length_reads_number measures).run_bind ahead]
  -- Where there are no bytes, no opcode is looked for.
  by_cases nothing : payload = []
  · subst nothing
    rw [if_pos List.length_nil, Decoder.run_pure, List.append_nil, means_nil_iff, Except.ok.injEq,
      Prod.mk.injEq]
    exact and_congr eq_comm eq_comm
  · let window := (cursor.after length (payload ++ following)).windowOver payload
    have inWindow : (∃ final, (extended addressSize).run window = .ok (instruction, final)) ↔
        Means addressSize payload instruction := run_extended_iff nothing
    rw [if_neg (mt List.length_eq_zero_iff.mp nothing), Decoder.run_windowed,
      (Decoder.take_reads rfl).run rfl, Cursor.after_after, ← inWindow]
    change (fun result => (result.1, cursor.after (length ++ payload) following)) <$>
      (extended addressSize).run window = _ ↔ _
    cases (extended addressSize).run window with
    | error error => simp
    | ok result => simp [Prod.ext_iff, eq_comm]

/-- Whatever an extended opcode is read as, it has a length and as many bytes behind it. -/
theorem exists_frame_of_run
    (outcome : (extendedWithLength addressSize).run cursor = .ok (instruction, next)) :
    ∃ length payload, Leb128.EncodesUnsigned length payload.length ∧
      cursor.rest = length ++ (payload ++ next.rest) := by
  obtain ⟨number, behind, numberReads, outcome⟩ := Decoder.run_bind_eq_ok.mp outcome
  obtain ⟨length, measures, stands, _⟩ := Decoder.length_of_run numberReads
  split at outcome
  · rename_i zero
    cases outcome
    cases zero
    exact ⟨length, [], measures, stands⟩
  · obtain ⟨window, _, windowReads, outcome⟩ := Decoder.run_bind_eq_ok.mp outcome
    obtain ⟨payload, long, _, standsNext, _⟩ := Decoder.window_of_run windowReads
    obtain ⟨rfl, _⟩ := Decoder.within_of_run outcome
    exact ⟨length, payload, long ▸ measures, by rw [stands, standsNext]⟩

theorem run_mark (based : header.opcodeBase ≠ 0) {opcodes : Bytes}
    (ahead : cursor.rest = [0] ++ opcodes) :
    (Decoder.byte >>= decoder header addressSize).run cursor =
      (extendedWithLength addressSize).run (cursor.after [0] opcodes) := by
  rw [(Decoder.byte_reads 0).run_bind ahead]
  unfold decoder
  rw [if_neg (by simpa using based), if_pos rfl]

theorem skipOperands_reads {operands : List Bytes}
    (encoded : ∀ operand ∈ operands, ∃ number, Leb128.EncodesUnsigned operand number) :
    (skipOperands operands.length).Reads cursor operands.flatten suffix () := by
  induction operands generalizing cursor with
  | nil => exact Decoder.pure_reads ()
  | cons operand operands induction =>
      rw [List.forall_mem_cons] at encoded
      obtain ⟨_, _, decodes, _⟩ := encoded.1
      exact (Decoder.unsigned_reads_encoding decodes).bind (induction encoded.2)

/-- The first standard opcode without a meaning is the thirteenth. -/
theorem standard_of_beyond {opcode count : UInt8} (beyond : 13 ≤ opcode.toNat)
    (listed : header.operandCounts[opcode.toNat - 1]? = some count) :
    standard header opcode = (skipOperands count.toNat >>= fun _ => pure .skip) := by
  unfold standard
  generalize opcode.toNat = number at beyond listed ⊢
  obtain ⟨more, rfl⟩ := Nat.exists_eq_add_of_le' beyond
  change (skipOperands ((header.operandCounts[more + 13 - 1]?).elim 0 UInt8.toNat) >>=
    fun _ => pure LineInstruction.skip) = _
  rw [listed]
  rfl

theorem Unknown.spells (based : header.opcodeBase ≠ 0) (unknown : Unknown header bytes) :
    Spells header addressSize bytes [.skip] := by
  apply spells_single
  intro cursor ahead
  cases unknown with
  | @empty length measures =>
      rw [List.append_nil] at ahead
      have alone : (cursor.after [0] length).rest = length ++ ([] ++ []) := by simp
      rw [run_mark based ahead, run_extendedWithLength_iff measures alone, List.append_nil,
        Cursor.after_after]
      exact ⟨.nothing, rfl⟩
  | @extended length opcode operands measures other =>
      rw [List.append_nil] at ahead
      have alone : (cursor.after [0] (length ++ (opcode :: operands))).rest =
          length ++ ((opcode :: operands) ++ []) := by simp
      rw [run_mark based ahead, run_extendedWithLength_iff measures alone, Cursor.after_after]
      exact ⟨.unknown other, rfl⟩
  | @standard opcode count operands beyond below listed counted encoded =>
      have nonzero : opcode ≠ 0 := by
        rintro rfl
        exact absurd beyond (by decide)
      apply standard_reads below nonzero ?_ ahead
      rw [standard_of_beyond beyond listed, ← counted]
      exact (skipOperands_reads encoded).bind_last (Decoder.pure_reads _)

/-- Opcodes that say nothing can stand for none at all. -/
theorem Unknown.interchangeable (based : header.opcodeBase ≠ 0) (unknown : Unknown header bytes) :
    Interchangeable header addressSize bytes [] :=
  ⟨[.skip], [], unknown.spells based, spells_nil, fun _ => rfl⟩

/-- An opcode that is cut short is not read, whatever bytes it could go on with. -/
theorem CutShort.fails (based : header.opcodeBase ≠ 0) (cut : CutShort addressSize bytes)
    (ahead : cursor.rest = bytes ++ following) :
    ∃ error, (Decoder.byte >>= decoder header addressSize).run cursor = .error error := by
  obtain @⟨length, payload, missing, instruction, measures, some_payload, some_missing, known⟩ :=
    cut
  rw [List.append_assoc, List.append_assoc] at ahead
  rw [run_mark based ahead]
  cases outcome : (extendedWithLength addressSize).run
      (cursor.after [0] (length ++ (payload ++ following))) with
  | error error => exact ⟨error, rfl⟩
  | ok result =>
      obtain ⟨means, _⟩ := (run_extendedWithLength_iff measures rfl).mp outcome
      exact absurd (means.nothing_missing some_payload known) some_missing

end LineInstruction

namespace LineTable

variable {header : LineHeader} {addressSize : UInt8} {instructions : List LineInstruction}
  {program : LineProgramBytes} {before behind : Bytes}

/-- A program that goes on with bytes that are no instruction has no table. -/
theorem HasProgram.decode_fails {more : Bytes}
    (has : HasProgram (program.between before behind) before.length addressSize header
      program.opcodes instructions) (short : (program.followedBy more).Short)
    (some_more : more ≠ [])
    (fails : ∀ cursor : Cursor, cursor.rest = more → ∃ error,
      (Decoder.byte >>= LineInstruction.decoder header addressSize).run cursor = .error error) :
    ∃ error, decode ((program.followedBy more).between before behind) before.length addressSize =
      .error error := by
  obtain ⟨error, failed⟩ := fails ((program.window before.length).after program.opcodes more) rfl
  have unread : (LineInstruction.program header addressSize).run
      ((program.window before.length).after program.opcodes more) = .error error := by
    change (Decoder.itemsToEnd _ _ _).run _ = _
    rw [Decoder.run_itemsToEnd some_more, failed]
  refine ⟨error, ?_⟩
  rw [has.decode_followedBy short]
  unfold LineState.interpret
  rw [unread]
  rfl

/-- Opcodes without a meaning are passed over, and no opcode is read beyond its length. In any
program that has been read so far, such opcodes may be put in front of what follows: the rows and
files are the same, or there are none for the same reason. What is read behind the mark of an
extended opcode has a length and ends with as many bytes behind it; it is what these bytes mean, so
an opcode whose operand they cut short makes the whole program fail, whatever follows. -/
theorem unknown_opcodes_are_passed_over (addressSize : UInt8) :
    (∀ (program : LineProgramBytes) (before behind : Bytes) (header : LineHeader)
        (instructions : List LineInstruction),
      HasProgram (program.between before behind) before.length addressSize header
        program.opcodes instructions →
      (∀ unknown following : Bytes, LineInstruction.Unknown header unknown →
        (program.followedBy (unknown ++ following)).Short →
        outcome (decode ((program.followedBy (unknown ++ following)).between before behind)
            before.length addressSize) =
          outcome (decode ((program.followedBy following).between before behind)
            before.length addressSize)) ∧
      ∀ cut following : Bytes, LineInstruction.CutShort addressSize cut →
        (program.followedBy (cut ++ following)).Short →
        ∃ error, decode ((program.followedBy (cut ++ following)).between before behind)
          before.length addressSize = .error error) ∧
    ∀ (lines : Bytes) (offset : Nat) (header : LineHeader) (window : Cursor),
      LineHeader.decoder.runAt .lines lines offset = .ok (header, window) →
      ∀ (cursor next : Cursor) (instruction : LineInstruction),
        (∀ opcodes : Bytes, cursor.rest = [0] ++ opcodes →
          (Decoder.byte >>= LineInstruction.decoder header addressSize).run cursor =
            .ok (instruction, next) →
          ∃ length payload, Leb128.EncodesUnsigned length payload.length ∧
            opcodes = length ++ (payload ++ next.rest)) ∧
        ∀ length payload following : Bytes, Leb128.EncodesUnsigned length payload.length →
          cursor.rest = [0] ++ (length ++ (payload ++ following)) →
          ((Decoder.byte >>= LineInstruction.decoder header addressSize).run cursor =
              .ok (instruction, next) ↔
            LineInstruction.Means addressSize payload instruction ∧
              next = cursor.after ([0] ++ (length ++ payload)) following) := by
  constructor
  · intro program before behind header instructions has
    constructor
    · intro unknown following isUnknown short
      exact has.decode_interchanged (isUnknown.interchangeable has.sound.opcodeBase) short
        (short.of_length_le (by simp))
    · intro cut following isCut short
      obtain ⟨measures, some_payload, some_missing, known⟩ := isCut
      exact has.decode_fails short (by simp) fun cursor ahead =>
        LineInstruction.CutShort.fails has.sound.opcodeBase
          ⟨measures, some_payload, some_missing, known⟩ ahead
  · intro lines offset header window headerReads cursor next instruction
    have based := (LineHeader.sound_of_runAt headerReads).opcodeBase
    constructor
    · intro opcodes ahead outcome
      rw [LineInstruction.run_mark based ahead] at outcome
      exact LineInstruction.exists_frame_of_run outcome
    · intro length payload following measures ahead
      rw [LineInstruction.run_mark based ahead,
        LineInstruction.run_extendedWithLength_iff measures rfl, Cursor.after_after]

/-- A program with one standard opcode that has no meaning and two operands. -/
def sparseProgram : LineProgramBytes where
  version := 2
  fields := [1, 1, 255, 4, 14, 0, 1, 1, 1, 1, 0, 0, 0, 1, 0, 0, 1, 2, 0, 97, 0, 0, 0, 0, 0]
  opcodes := [1]

def sparseHeader : LineHeader where
  offset := 1
  unitLength := 32
  version := .two
  headerLength := 25
  minimumInstructionLength := 1
  maximumOperations := 1
  defaultIsStatement := true
  lineBase := -1
  lineRange := 4
  opcodeBase := 14
  operandCounts := [0, 1, 1, 1, 1, 0, 0, 0, 1, 0, 0, 1, 2]
  directories := []
  files := [{ name := "a", directory := 0, modified := 0, size := 0 }]

theorem headerReads_sparse : LineHeader.decoder.runAt .lines (sparseProgram.between [9] [7]) 1 =
    .ok (sparseHeader, sparseProgram.window 1) := by
  decide +kernel

theorem hasProgram_sparse :
    HasProgram (sparseProgram.between [9] [7]) 1 8 sparseHeader sparseProgram.opcodes [.copy] :=
  ⟨sparseProgram.window 1, (sparseProgram.window 1).after sparseProgram.opcodes [],
    headerReads_sparse, rfl, by decide +kernel⟩

/-- All operands look like opcodes. The address that is cut short could go on with the copies behind
it, and the vendor's opcode has a redundant group in its length. -/
theorem unknown_opcodes_are_passed_over_sparse :
    outcome (decode ((sparseProgram.followedBy ([13, 129, 1, 1] ++ [0, 1, 1])).between [9] [7])
        1 8) =
      outcome (decode ((sparseProgram.followedBy [0, 1, 1]).between [9] [7]) 1 8) ∧
    (∃ error, decode ((sparseProgram.followedBy
        ([0, 3, 2, 1, 1] ++ [1, 1, 1, 1, 1, 1, 0, 1, 1])).between [9] [7]) 1 8 = .error error) ∧
    (Decoder.byte >>= LineInstruction.decoder sparseHeader 8).run
        (.startingAt .lines 40 ([0] ++ ([131, 0] ++ ([128, 1, 1] ++ [1])))) =
      .ok (.skip, (Cursor.startingAt .lines 40 ([0] ++ ([131, 0] ++ ([128, 1, 1] ++ [1])))).after
        ([0] ++ ([131, 0] ++ [128, 1, 1])) [1]) := by
  obtain ⟨transparent, cutShort⟩ :=
    (unknown_opcodes_are_passed_over 8).1 sparseProgram [9] [7] sparseHeader [.copy]
      hasProgram_sparse
  have encoded : ∀ operand ∈ ([[129, 1], [1]] : List Bytes),
      ∃ number, Leb128.EncodesUnsigned operand number := by
    rw [List.forall_mem_cons, List.forall_mem_singleton]
    exact ⟨⟨129, 129, by decide +kernel, rfl⟩, ⟨1, 1, by decide +kernel, rfl⟩⟩
  have unknown : LineInstruction.Unknown sparseHeader ([13] ++ [[129, 1], [1]].flatten) :=
    .standard (by decide) (by decide) rfl rfl encoded
  have cutAddress : LineInstruction.Known 8 ([2, 1, 1] ++ [1, 1, 1, 1, 1, 1])
      (.setAddress 0x0101010101010101) :=
    .setAddress (show Width.ofUInt8? 8 = some .eight from rfl) rfl
  have cut : LineInstruction.CutShort 8 ([0] ++ ([3] ++ [2, 1, 1])) :=
    .intro ⟨3, by decide +kernel, rfl⟩ (by decide) (by decide) cutAddress
  have frame := ((unknown_opcodes_are_passed_over 8).2 _ _ _ _ headerReads_sparse
    (.startingAt .lines 40 ([0] ++ ([131, 0] ++ ([128, 1, 1] ++ [1]))))
    ((Cursor.startingAt .lines 40 ([0] ++ ([131, 0] ++ ([128, 1, 1] ++ [1])))).after
        ([0] ++ ([131, 0] ++ [128, 1, 1])) [1]) .skip).2
  exact ⟨transparent _ [0, 1, 1] unknown (by decide), cutShort _ _ cut (by decide),
    (frame _ _ _ ⟨3, by decide +kernel, rfl⟩ rfl).mpr ⟨.unknown (by decide), rfl⟩⟩

end LineTable

end Symbolication
