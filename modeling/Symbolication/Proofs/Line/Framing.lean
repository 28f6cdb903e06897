import Symbolication.Line.Table
import Symbolication.Proofs.Decoder.Reads

/-!
Line programs in a section, as bytes. A program is its version, the fields that its header length
covers, whatever they are, and its opcodes; the lengths in front of them follow. The header is the
same whatever the opcodes are, but for the length of the whole.
-/

namespace Symbolication

/-- The fields are read the same whatever the length of the whole is. -/
theorem LineHeader.fields_unitLength (start unitLength : Nat) (version : Version)
    (headerLength other : Nat) :
    fields start other version headerLength =
      (fun header => { header with unitLength := other }) <$>
        fields start unitLength version headerLength := by
  unfold fields
  dsimp only
  split
  · simp only [map_bind, map_pure]
  · simp only [map_bind, map_pure]

/-- A header tells where it has been read. -/
theorem LineHeader.offset_of_runAt {lines : Bytes} {offset : Nat} {header : LineHeader}
    {opcodes : Cursor} (reads : decoder.runAt .lines lines offset = .ok (header, opcodes)) :
    header.offset = offset := by
  have marks (start unitLength : Nat) (version : Version) (headerLength : Nat) :
      fields start unitLength version headerLength =
        (fun header => { header with offset := start }) <$>
          fields start unitLength version headerLength := by
    unfold fields
    dsimp only
    split
    · simp only [map_bind, map_pure]
    · simp only [map_bind, map_pure]
  obtain ⟨_, _, outcome⟩ := Decoder.runAt_eq_ok.mp reads
  obtain ⟨⟨start, unitLength⟩, _, located, outcome⟩ := Decoder.run_bind_eq_ok.mp outcome
  obtain ⟨_, _, _, outcome⟩ := Decoder.run_bind_eq_ok.mp outcome
  obtain ⟨_, _, outcome⟩ := Decoder.within_of_run outcome
  obtain ⟨_, _, _, outcome⟩ := Decoder.run_bind_eq_ok.mp outcome
  obtain ⟨_, _, _, outcome⟩ := Decoder.run_bind_eq_ok.mp outcome
  obtain ⟨_, _, _, outcome⟩ := Decoder.run_bind_eq_ok.mp outcome
  obtain ⟨_, _, _, outcome⟩ := Decoder.run_bind_eq_ok.mp outcome
  obtain ⟨_, _, fieldsRead, finish⟩ := Decoder.run_bind_eq_ok.mp outcome
  cases finish
  obtain ⟨_, _, fieldsRead⟩ := Decoder.within_of_run fieldsRead
  rw [marks, Decoder.run_map] at fieldsRead
  split at fieldsRead <;> cases fieldsRead
  exact Decoder.start_of_located located

/-- A program as it is written, but for its lengths. -/
structure LineProgramBytes where
  version : UInt16
  /-- What the header length covers. -/
  fields : Bytes
  opcodes : Bytes
deriving DecidableEq, Repr

namespace LineProgramBytes

def head (program : LineProgramBytes) : Bytes :=
  Bytes.ofNumber 2 program.version.toNat ++
    (Bytes.ofNumber 4 program.fields.length ++ program.fields)

def unitLength (program : LineProgramBytes) : Nat := (program.head ++ program.opcodes).length

def encode (program : LineProgramBytes) : Bytes :=
  Bytes.ofNumber 4 program.unitLength ++ (program.head ++ program.opcodes)

/-- A section with the program between other bytes. -/
def between (program : LineProgramBytes) (before behind : Bytes) : Bytes :=
  before ++ (program.encode ++ behind)

/-- The program with more opcodes behind its own. -/
def followedBy (program : LineProgramBytes) (opcodes : Bytes) : LineProgramBytes :=
  { program with opcodes := program.opcodes ++ opcodes }

/-- Whether the length is neither reserved nor one of the 64-bit format. -/
def Short (program : LineProgramBytes) : Prop := program.unitLength < 0xfffffff0

instance (program : LineProgramBytes) : Decidable program.Short :=
  inferInstanceAs (Decidable (_ < _))

/-- The header of a program that begins at an offset. -/
def header (program : LineProgramBytes) (start : Nat) : Except DecodeError LineHeader :=
  match Version.ofNumber? program.version with
  | none =>
      .error { source := .lines, offset := start, fault := .unsupportedVersion program.version }
  | some version =>
      ((LineHeader.fields start program.unitLength version program.fields.length).run
        (.startingAt .lines (start + 10) program.fields)).map (·.1)

/-- The window of the opcodes. -/
def window (program : LineProgramBytes) (start : Nat) : Cursor where
  source := .lines
  origin := start + 4
  position := 6 + program.fields.length
  rest := program.opcodes

variable {program : LineProgramBytes} {before behind more : Bytes} {start : Nat}

theorem unitLength_followedBy (more : Bytes) :
    (program.followedBy more).unitLength = program.unitLength + more.length := by
  simp only [unitLength, followedBy, head, List.length_append]
  omega

theorem Short.of_followedBy (short : (program.followedBy more).Short) : program.Short := by
  unfold Short at short ⊢
  rw [unitLength_followedBy] at short
  omega

theorem Short.of_length_le {less : Bytes} (short : (program.followedBy more).Short)
    (shorter : less.length ≤ more.length) : (program.followedBy less).Short := by
  unfold Short at short ⊢
  rw [unitLength_followedBy] at short ⊢
  omega

theorem contents_run (short : program.Short) :
    (LineHeader.contents start program.unitLength).run
        (.startingAt .lines (start + 4) (program.head ++ program.opcodes)) =
      (program.header start).map fun header =>
        ((header, program.window start), program.window start) := by
  have covered : program.fields.length < 2 ^ 32 := by
    unfold Short unitLength head at short
    simp only [List.length_append] at short
    omega
  have number : (UInt32.ofNat program.fields.length).toNat = program.fields.length :=
    UInt32.toNat_ofNat_of_lt' covered
  let opening : Cursor := .startingAt .lines (start + 4) (program.head ++ program.opcodes)
  let behindVersion := opening.after (Bytes.ofNumber 2 program.version.toNat)
    (Bytes.ofNumber 4 program.fields.length ++ program.fields ++ program.opcodes)
  have versionReads : Decoder.uint16.run opening = .ok (program.version, behindVersion) :=
    (Decoder.uint16_reads program.version).run (by simp [opening, Cursor.startingAt, head])
  let behindLength := behindVersion.after (Bytes.ofNumber 4 program.fields.length)
    (program.fields ++ program.opcodes)
  have windowReads : (Decoder.window program.fields.length).run behindLength =
      .ok (behindLength.windowOver program.fields,
        behindLength.after program.fields program.opcodes) :=
    (Decoder.window_reads rfl).run rfl
  have opcodesWindow : behindLength.after program.fields program.opcodes =
      program.window start := by
    simp [behindLength, behindVersion, opening, Cursor.after, Cursor.startingAt, window]
  have fieldsWindow : behindLength.windowOver program.fields =
      .startingAt .lines (start + 10) program.fields := by
    simp [behindLength, behindVersion, opening, Cursor.after, Cursor.startingAt,
      Cursor.windowOver, Cursor.offset]
  have opens : Cursor.startingAt .lines (start + 4) (program.head ++ program.opcodes) = opening :=
    rfl
  rw [opens]
  unfold LineHeader.contents Decoder.version header
  rw [Decoder.run_bind, Decoder.run_bind, versionReads]
  dsimp only
  cases Version.ofNumber? program.version with
  | none => rfl
  | some version =>
      dsimp only [Decoder.run_pure]
      rw [(Decoder.uint32_ofNat_reads covered).run_bind (List.append_assoc _ _ _), number]
      rw [Decoder.run_bind, windowReads, opcodesWindow, fieldsWindow]
      dsimp only
      rw [Decoder.run_bind]
      dsimp only [Decoder.cursor]
      rw [Decoder.run_bind]
      unfold Decoder.within Decoder.lift
      dsimp only
      cases (LineHeader.fields start program.unitLength version program.fields.length).run
          (.startingAt .lines (start + 10) program.fields) with
      | error error => rfl
      | ok result => rfl

theorem header_reads (short : program.Short) :
    LineHeader.decoder.runAt .lines (program.between before behind) before.length =
      (program.header before.length).map fun header => (header, program.window before.length) := by
  have inside : before.length ≤ (program.between before behind).length := by
    unfold between
    simp
  let opening : Cursor := .startingAt .lines before.length (program.encode ++ behind)
  have ahead : opening.rest =
      Bytes.ofNumber 4 program.unitLength ++ (program.head ++ program.opcodes ++ behind) := by
    simp [opening, Cursor.startingAt, encode]
  have unitWindow : (opening.after (Bytes.ofNumber 4 program.unitLength)
      (program.head ++ program.opcodes ++ behind)).windowOver (program.head ++ program.opcodes) =
        .startingAt .lines (before.length + 4) (program.head ++ program.opcodes) := by
    simp [opening, Cursor.after, Cursor.startingAt, Cursor.windowOver, Cursor.offset]
  have windowReads : (Decoder.window program.unitLength).Reads
      (opening.after (Bytes.ofNumber 4 program.unitLength)
        (program.head ++ program.opcodes ++ behind)) (program.head ++ program.opcodes) behind _ :=
    Decoder.window_reads rfl
  have place : opening.offset = before.length := rfl
  have behindOthers : (program.between before behind).drop before.length =
      program.encode ++ behind := List.drop_left
  have opens : Cursor.startingAt .lines before.length (program.encode ++ behind) = opening := rfl
  rw [Decoder.runAt_of_le inside, behindOthers, opens]
  unfold LineHeader.decoder
  rw [(Decoder.located_reads (Decoder.initialLength_reads short)).run_bind ahead]
  dsimp only
  rw [windowReads.run_bind rfl, unitWindow, place]
  unfold Decoder.within Decoder.lift
  dsimp only
  rw [contents_run short]
  cases program.header before.length <;> rfl

/-- More opcodes change nothing in the header but the length of the whole. -/
theorem header_followedBy (more : Bytes) :
    (program.followedBy more).header start =
      (program.header start).map fun header =>
        { header with unitLength := (program.followedBy more).unitLength } := by
  unfold header followedBy
  dsimp only
  cases Version.ofNumber? program.version with
  | none => rfl
  | some version =>
      dsimp only
      rw [LineHeader.fields_unitLength start program.unitLength, Decoder.run_map]
      cases (LineHeader.fields start program.unitLength version program.fields.length).run
          (.startingAt .lines (start + 10) program.fields) <;> rfl

end LineProgramBytes

end Symbolication
