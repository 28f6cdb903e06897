import Mathlib.Data.List.Forall2
import Symbolication.Proofs.ObjectFile.Layout

/-!
The sections of an opened file are those that were written: each header stands for one of them, so
its name and its bytes are found where its numbers say. The first of several with one name answers.
-/

namespace Symbolication

theorem nodup_eraseDups (texts : List String) : texts.eraseDups.Nodup := by
  match texts with
  | [] => exact List.nodup_nil
  | text :: texts =>
      rw [List.eraseDups_cons, List.nodup_cons]
      constructor
      · rw [List.mem_eraseDups, List.mem_filter]
        simp
      · exact nodup_eraseDups _
termination_by texts.length
decreasing_by exact Nat.lt_succ_of_le (List.length_filter_le _ _)

namespace WrittenObject

variable {object : WrittenObject}

/-- What a section header stands for: the name and the bytes that were written. -/
structure Shows (object : WrittenObject) (header : SectionHeader) (part : WrittenSection) :
    Prop where
  name : object.opened.nameOf? header = some part.name
  plain : header.hasPlainBytes = true
  contents : Bytes.slice? object.encode header.offset header.size = some part.contents

theorem namesIndex_opened (wellFormed : object.WellFormed) :
    object.opened.namesIndex = object.namesIndex := by
  have index := wellFormed.index
  unfold ObjectFile.namesIndex
  change (if (if object.indexInTable then ObjectFile.namesIndexEscape else object.namesIndex) =
    ObjectFile.namesIndexEscape then (if object.indexInTable then object.namesIndex else 0)
      else (if object.indexInTable then ObjectFile.namesIndexEscape else object.namesIndex)) = _
  cases place : object.indexInTable with
  | true => rfl
  | false => exact if_neg (Nat.ne_of_lt (index place))

theorem names_header : ∃ header, object.opened.sections[object.namesIndex]? = some header ∧
    header.offset = object.namesOffset := by
  refine ⟨(object.namesSection.record
    (1 + (object.sections.flatMap WrittenSection.encodeName).length) object.namesOffset).header,
    ?_, rfl⟩
  unfold opened records namesIndex listed
  rw [WrittenSection.records_append, List.map_cons, List.getElem?_cons_succ, List.map_append,
    List.getElem?_append_right (by simp)]
  simp [WrittenSection.records, namesOffset]

theorem nameOf?_opened (wellFormed : object.WellFormed) {header : SectionHeader} {name : String}
    {rest : Bytes} (clean : '\x00' ∉ name.toList)
    (here : object.encode.drop (object.namesOffset + header.nameOffset) =
      Utf8.encode name ++ 0 :: rest) :
    object.opened.nameOf? header = some name := by
  obtain ⟨names, found, offset⟩ := object.names_header
  unfold ObjectFile.nameOf?
  rw [namesIndex_opened wellFormed, found]
  change (Bytes.splitAtZero? (object.encode.drop (names.offset + header.nameOffset))).bind _ = _
  rw [offset, here, Bytes.splitAtZero?_append (Utf8.zero_notMem_encode clean)]
  exact Utf8.text?_encode name

theorem encode_eq_names : object.encode =
    (object.header.encode ++ object.sections.flatMap WrittenSection.contents) ++
      (object.names ++ (object.gap ++ object.records.flatMap SectionRecord.encode)) := by
  unfold encode listed
  rw [List.flatMap_append, List.flatMap_singleton]
  simp only [namesSection, List.append_assoc]

theorem encode_drop_names {front back : Bytes} (split : object.names = front ++ back) :
    object.encode.drop (object.namesOffset + front.length) =
      back ++ (object.gap ++ object.records.flatMap SectionRecord.encode) := by
  have before : object.namesOffset + front.length = (object.header.encode ++
      object.sections.flatMap WrittenSection.contents ++ front).length := by
    rw [List.length_append, List.length_append, ObjectRecord.length_encode]
    rfl
  rw [encode_eq_names, split, before, List.append_assoc front, ← List.append_assoc _ front,
    List.drop_left]

theorem shows_record (wellFormed : object.WellFormed) {front back : List WrittenSection}
    {part : WrittenSection} (split : object.listed = front ++ part :: back) :
    object.Shows (part.record (1 + (front.flatMap WrittenSection.encodeName).length)
      (ObjectHeader.size + (front.flatMap WrittenSection.contents).length)).header part := by
  have formed := wellFormed.listed part (by rw [split]; simp)
  constructor
  · have names : object.names = (0 :: front.flatMap WrittenSection.encodeName) ++
        (part.encodeName ++ back.flatMap WrittenSection.encodeName) := by
      rw [names_eq_flatMap, split, List.flatMap_append, List.flatMap_cons, List.cons_append]
    have here := encode_drop_names names
    rw [List.length_cons, Nat.add_comm _ 1, WrittenSection.encodeName, List.append_assoc,
      List.append_assoc, List.singleton_append] at here
    exact nameOf?_opened wellFormed formed.clean here
  · unfold SectionHeader.hasPlainBytes
    change (decide (part.kind.toNat ≠ _) && !part.flags.toNat.testBit _) = true
    rw [formed.plain, decide_eq_true formed.kind]
    rfl
  · have found := Bytes.slice?_append
      (object.header.encode ++ front.flatMap WrittenSection.contents) part.contents
      (back.flatMap WrittenSection.contents ++ object.gap ++
        object.records.flatMap SectionRecord.encode)
    have whole : object.encode = (object.header.encode ++
        front.flatMap WrittenSection.contents) ++ (part.contents ++
          (back.flatMap WrittenSection.contents ++ object.gap ++
            object.records.flatMap SectionRecord.encode)) := by
      unfold encode
      rw [split, List.flatMap_append, List.flatMap_cons]
      simp only [List.append_assoc]
    rw [← whole, List.length_append, ObjectRecord.length_encode] at found
    exact found

/-- Behind the first header, the headers stand for the sections one by one. -/
theorem shows_records (wellFormed : object.WellFormed) {front back : List WrittenSection}
    (split : object.listed = front ++ back) :
    List.Forall₂ object.Shows
      ((WrittenSection.records (1 + (front.flatMap WrittenSection.encodeName).length)
        (ObjectHeader.size + (front.flatMap WrittenSection.contents).length) back).map
          SectionRecord.header) back := by
  induction back generalizing front with
  | nil => exact .nil
  | cons part back induction =>
      have later := induction (split.trans (List.append_cons front part back))
      rw [List.flatMap_append, List.flatMap_append, List.flatMap_singleton, List.flatMap_singleton,
        List.length_append, List.length_append, ← Nat.add_assoc, ← Nat.add_assoc] at later
      exact .cons (shows_record wellFormed split) later

theorem nameOf?_first (wellFormed : object.WellFormed) :
    object.opened.nameOf? object.firstRecord.header = some "" := by
  have whole : object.names = [] ++ object.names := rfl
  exact nameOf?_opened wellFormed (by decide) (encode_drop_names whole)

theorem sections_opened (object : WrittenObject) : object.opened.sections =
    object.firstRecord.header ::
      (WrittenSection.records 1 ObjectHeader.size object.listed).map SectionRecord.header := rfl

theorem shows_listed (wellFormed : object.WellFormed) :
    List.Forall₂ object.Shows
      ((WrittenSection.records 1 ObjectHeader.size object.listed).map SectionRecord.header)
      object.listed :=
  shows_records wellFormed (List.nil_append _).symm

theorem map_nameOf?_opened (wellFormed : object.WellFormed) :
    object.opened.sections.map object.opened.nameOf? =
      ("" :: object.listed.map WrittenSection.name).map some := by
  have others {headers : List SectionHeader} {parts : List WrittenSection}
      (shown : List.Forall₂ object.Shows headers parts) :
      headers.map object.opened.nameOf? = (parts.map WrittenSection.name).map some := by
    induction shown with
    | nil => rfl
    | cons shows _ induction => simp only [List.map_cons, shows.name, induction]
  rw [sections_opened, List.map_cons, nameOf?_first wellFormed, others (shows_listed wellFormed),
    List.map_cons]

theorem sectionName?_opened (wellFormed : object.WellFormed) (index : Nat) :
    object.opened.sectionName? index =
      ("" :: object.listed.map WrittenSection.name)[index]? := by
  have there : (object.opened.sections[index]?).map object.opened.nameOf? =
      (("" :: object.listed.map WrittenSection.name)[index]?).map some := by
    rw [← List.getElem?_map, ← List.getElem?_map, map_nameOf?_opened wellFormed]
  unfold ObjectFile.sectionName?
  cases found : object.opened.sections[index]? with
  | none =>
      rw [found] at there
      exact (Option.map_eq_none_iff.mp there.symm).symm
  | some header =>
      rw [found, Option.map_some] at there
      obtain ⟨name, written, named⟩ := Option.map_eq_some_iff.mp there.symm
      rw [written]
      exact named.symm

theorem sectionNames_opened (wellFormed : object.WellFormed) :
    object.opened.sectionNames = (object.listed.map WrittenSection.name).eraseDups := by
  have named : ∀ name ∈ object.listed.map WrittenSection.name, (!name.isEmpty) = true := by
    intro name member
    obtain ⟨part, listed, rfl⟩ := List.mem_map.mp member
    simpa using (wellFormed.listed part listed).named
  have texts : object.opened.sections.filterMap object.opened.nameOf? =
      "" :: object.listed.map WrittenSection.name := by
    have all := congrArg (List.filterMap id) (map_nameOf?_opened wellFormed)
    rw [List.filterMap_map, List.filterMap_map] at all
    exact all.trans List.filterMap_some
  unfold ObjectFile.sectionNames
  rw [texts, List.filter_cons_of_neg (by decide), List.filter_eq_self.mpr named]

/-- The first header with a name stands for the first section with it. -/
theorem bytes_of_first {headers : List SectionHeader} {parts : List WrittenSection}
    (shown : List.Forall₂ object.Shows headers parts) (name : String) :
    ((headers.find? (object.opened.nameOf? · = some name)).bind fun header =>
      if header.hasPlainBytes then Bytes.slice? object.encode header.offset header.size
      else none) = (parts.find? (·.name = name)).map WrittenSection.contents := by
  induction shown with
  | nil => rfl
  | @cons header part _ _ shows _ induction =>
      by_cases same : part.name = name
      · simp only [List.find?_cons, shows.name, same, decide_true, Option.bind_some,
          Option.map_some, if_pos shows.plain, shows.contents]
      · simp only [List.find?_cons, shows.name, Option.some.injEq, same, decide_false, induction]

theorem sectionBytes?_opened (wellFormed : object.WellFormed) (name : String) :
    object.opened.sectionBytes? name =
      (object.listed.find? (·.name = name)).map WrittenSection.contents := by
  unfold ObjectFile.sectionBytes? ObjectFile.find?
  by_cases empty : name = ""
  · have absent : object.listed.find? (·.name = name) = none := by
      rw [List.find?_eq_none]
      intro part listed
      rw [empty]
      simpa using (wellFormed.listed part listed).named
    rw [absent, empty]
    rfl
  · have skipped : object.opened.nameOf? object.firstRecord.header ≠ some name := by
      rw [nameOf?_first wellFormed]
      simpa using Ne.symm empty
    rw [if_neg (by simpa using empty), sections_opened]
    simp only [List.find?_cons, skipped, decide_false]
    exact bytes_of_first (shows_listed wellFormed) name

/-- A file that was written opens, and its sections answer by index and by name: the index of the
first header has the empty name, and of several sections with one name the first answers. -/
theorem opens_with_sections (object : WrittenObject) (wellFormed : object.WellFormed) :
    ∃ opened, ObjectFile.decode object.encode = .ok opened ∧
      (∀ index, opened.sectionName? index =
        ("" :: object.listed.map WrittenSection.name)[index]?) ∧
      opened.sectionNames.Nodup ∧
      (∀ name, name ∈ opened.sectionNames ↔ name ∈ object.listed.map WrittenSection.name) ∧
      ∀ name, opened.sectionBytes? name =
        (object.listed.find? (·.name = name)).map WrittenSection.contents := by
  refine ⟨object.opened, decode_encode wellFormed, sectionName?_opened wellFormed, ?_, ?_,
    sectionBytes?_opened wellFormed⟩
  · rw [sectionNames_opened wellFormed]
    exact nodup_eraseDups _
  · intro name
    rw [sectionNames_opened wellFormed]
    exact List.mem_eraseDups

def sampleSection (name : String) (contents : Bytes) : WrittenSection where
  name
  kind := 1
  flags := 0x30
  address := 0
  link := 0
  information := 0
  alignment := 1
  entrySize := 1
  contents

/-- Two sections of one name around an empty one. The count of headers stands in the table, the
index of the names in the file's header. -/
def sample : WrittenObject where
  kind := 1
  machine := 0x3e
  entryPoint := 0
  flags := 0
  identVersion := 1
  system := 0
  systemVersion := 0
  version := 1
  programOffset := 0
  headerSize := 64
  programEntrySize := 0
  programCount := 0
  sections := [sampleSection "té" [1, 2, 3], sampleSection ".line" [], sampleSection "té" [4]]
  namesName := ".shstrtab"
  gap := [0, 0]
  countInTable := true
  indexInTable := false

theorem sample_wellFormed : sample.WellFormed where
  sections := by decide
  named := by decide
  clean := by decide
  file := by decide +kernel
  names := by decide +kernel
  count := by decide
  index := by decide +kernel

theorem opens_with_sections_sample :
    ∃ opened, ObjectFile.decode sample.encode = .ok opened ∧
      opened.sectionName? 3 = some "té" ∧ opened.sectionName? 5 = none ∧
      ".line" ∈ opened.sectionNames ∧ opened.sectionBytes? "té" = some [1, 2, 3] ∧
      opened.sectionBytes? ".data" = none := by
  obtain ⟨opened, opens, names, -, listed, bytes⟩ := opens_with_sections sample sample_wellFormed
  refine ⟨opened, opens, names 3, names 5, (listed ".line").mpr (by decide), ?_, ?_⟩
  · rw [bytes]
    decide
  · rw [bytes]
    decide

end WrittenObject

end Symbolication
