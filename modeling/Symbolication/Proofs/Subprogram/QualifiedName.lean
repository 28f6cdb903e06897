import Symbolication.Proofs.Entry.Ancestry
import Symbolication.Proofs.Subprogram.Declaration

/-!
Names found along references. A declaration may refer on in turn, so references lead along a way of
entries; the first named one gives the name, qualified by the scopes around it in its own unit. The
bounded search is shown to answer exactly what stands on the way.
-/

namespace Symbolication

namespace CompileUnit

def Named (unit : CompileUnit) (index : Nat) (name : String) : Prop :=
  ∃ entry, unit.entries[index]? = some entry ∧ entry.name? = some name

def Unnamed (unit : CompileUnit) (index : Nat) : Prop := ∀ name, ¬unit.Named index name

/-- The name that an entry puts in front of the names inside it. -/
def scopeName? (entry : Entry) : Option String :=
  if entry.tag ∈ [Tag.classType, .structureType, .unionType, .moduleNamespace] then entry.name?
  else none

def scopeNames (unit : CompileUnit) (visited : List Nat) : List String :=
  visited.filterMap fun index => (unit.entries[index]?).bind scopeName?

/-- The name of an entry behind the names that are met on the way outwards from it, the outermost
first. -/
inductive Qualified (unit : CompileUnit) (index : Nat) : String → Prop
  | intro {name : String} {visited : List Nat} : unit.Named index name →
      Entry.Climbs unit.entries ((unit.entries[index]?).bind (·.parent)) visited →
        Qualified unit index
          ("::".intercalate ((unit.scopeNames visited).reverse ++ [name]))

variable {unit : CompileUnit} {index : Nat} {name : String}

theorem named_iff :
    unit.Named index name ↔ (unit.entries[index]?).bind (·.name?) = some name :=
  Option.bind_eq_some_iff.symm

theorem unnamed_iff : unit.Unnamed index ↔ (unit.entries[index]?).bind (·.name?) = none := by
  unfold Unnamed
  simp only [named_iff]
  exact Option.eq_none_iff_forall_ne_some.symm

theorem scopeName?_eq (entry : Entry) :
    scopeName? entry = if entry.tag.isScope then entry.name? else none := by
  unfold scopeName? Tag.isScope
  simp only [List.mem_cons, List.not_mem_nil, or_false, Bool.or_eq_true, beq_iff_eq, or_assoc]

/-- The way outwards meets the scopes that qualify a name. -/
theorem qualify_of_climbs (nested : Entry.Nested unit.entries) {visited : List Nat}
    (climbs : Entry.Climbs unit.entries ((unit.entries[index]?).bind (·.parent)) visited) :
    unit.qualify index name =
      "::".intercalate ((unit.scopeNames visited).reverse ++ [name]) := by
  have passes := ancestors_of_climbs nested climbs
  have names : unit.scopeNames visited =
      ((unit.ancestors index).filter (·.tag.isScope)).filterMap (·.name?) :=
    calc unit.scopeNames visited
        = (visited.map (unit.entries[·]?)).filterMap (·.bind scopeName?) := by
          rw [List.filterMap_map]
          rfl
      _ = (unit.ancestors index).filterMap scopeName? := by
          rw [passes, List.filterMap_map]
          rfl
      _ = _ := by
          rw [List.filterMap_filter]
          exact List.filterMap_congr fun entry _ => scopeName?_eq entry
  rw [names]
  rfl

theorem qualified_iff (nested : Entry.Nested unit.entries) {qualified : String} :
    unit.Qualified index qualified ↔
      ∃ name, unit.Named index name ∧ unit.qualify index name = qualified := by
  constructor
  · rintro ⟨named, climbs⟩
    exact ⟨_, named, qualify_of_climbs nested climbs⟩
  · rintro ⟨name, named, rfl⟩
    obtain ⟨visited, climbs, _⟩ := exists_walk nested index
    rw [qualify_of_climbs nested climbs]
    exact .intro named climbs

end CompileUnit

namespace DebugImage

/-- So many references lead from an entry to another one, and none that they lead to is named. -/
inductive Passes (image : DebugImage) (unit : CompileUnit) (index : Nat) :
    Nat → CompileUnit → Nat → Prop
  | start : Passes image unit index 0 unit index
  | further {hops place position : Nat} {last target : CompileUnit} :
      Passes image unit index hops last place → image.Next last place target position →
        target.Unnamed position → Passes image unit index (hops + 1) target position

/-- What the first named entry gives on the way from an entry, or what keeps the way from coming to
one within so many hops. -/
inductive Gives (image : DebugImage) (unit : CompileUnit) (index limit : Nat) :
    Except DecodeError (Option String) → Prop
  | name {hops place position : Nat} {last target : CompileUnit} {name : String} : hops < limit →
      Passes image unit index hops last place → image.Next last place target position →
        target.Qualified position name → Gives image unit index limit (.ok (some name))
  | ended {hops place : Nat} {last : CompileUnit} : hops < limit →
      Passes image unit index hops last place → image.Ends last place →
        Gives image unit index limit (.ok none)
  | failed {hops place : Nat} {last : CompileUnit} {error : DecodeError} : hops < limit →
      Passes image unit index hops last place → image.NextFails last place error →
        Gives image unit index limit (.error error)
  | exhausted {place : Nat} {last : CompileUnit} : Passes image unit index limit last place →
      Gives image unit index limit (.ok none)

/-- The answer for a qualified name, after the operations of a session. -/
def qualifiedNameAnswer [LinkageNames] (image : DebugImage) (operations : List Operation)
    (unit : CompileUnit) (index : Nat) : Except DecodeError (Option String) :=
  ((image.qualifiedName unit index).run.run (image.sessionCache operations)).1

theorem qualifiedNameAnswer_eq [LinkageNames] (image : DebugImage) (operations : List Operation)
    (unit : CompileUnit) (index : Nat) :
    image.qualifiedNameAnswer operations unit index =
      unit.nameWithinHops image.decodeContaining 8 index :=
  (image.qualifiedName_answers unit index).answer _ (image.sessionCache_sound operations)

variable {image : DebugImage} {unit target : CompileUnit} {index position hops : Nat}
  {error : DecodeError} {reference : AttributeValue} {name : String}

/-! One hop of the search. -/

theorem nameWithinHops_of_reference (refers : unit.HasReference index reference) (hops : Nat) :
    unit.nameWithinHops image.decodeContaining (hops + 1) index =
      (unit.resolveReference image.decodeContaining reference >>= fun target? =>
        target?.elim (.ok none) fun (target, position) =>
          ((target.entries[position]?).bind (·.name?)).elim
            (target.nameWithinHops image.decodeContaining hops position) fun name =>
              .ok (some (target.qualify position name))) := by
  rw [CompileUnit.nameWithinHops, CompileUnit.hasReference_iff.mp refers]
  dsimp only
  cases unit.resolveReference image.decodeContaining reference with
  | error error => rfl
  | ok target? =>
      cases target? with
      | none => rfl
      | some place =>
          obtain ⟨target, position⟩ := place
          change _ = ((target.entries[position]?).bind (·.name?)).elim _ _
          dsimp only [Bind.bind, Except.bind]
          cases (target.entries[position]?).bind (·.name?) <;> rfl

theorem nameWithinHops_of_next (isDecoded : unit.IsDecoded)
    (next : image.Next unit index target position) (hops : Nat) :
    unit.nameWithinHops image.decodeContaining (hops + 1) index =
      ((target.entries[position]?).bind (·.name?)).elim
        (target.nameWithinHops image.decodeContaining hops position) fun name =>
          .ok (some (target.qualify position name)) := by
  obtain ⟨reference, has, refers⟩ := next
  rw [nameWithinHops_of_reference has, (resolveReference_eq_some_iff isDecoded).mpr refers]
  rfl

theorem nameWithinHops_of_nextFails (fails : image.NextFails unit index error) (hops : Nat) :
    unit.nameWithinHops image.decodeContaining (hops + 1) index = .error error := by
  obtain ⟨offset, has, outside, fails⟩ := fails
  rw [nameWithinHops_of_reference has,
    resolveReference_eq_error_iff.mpr ⟨offset, rfl, outside, fails⟩]
  rfl

theorem nameWithinHops_of_ends (isDecoded : unit.IsDecoded) (ends : image.Ends unit index)
    (hops : Nat) : unit.nameWithinHops image.decodeContaining (hops + 1) index = .ok none := by
  cases has : (unit.entries[index]?).bind CompileUnit.declaration? with
  | none =>
      rw [CompileUnit.nameWithinHops, has]
      rfl
  | some reference =>
      have refers := CompileUnit.hasReference_iff.mpr has
      rw [nameWithinHops_of_reference refers]
      cases outcome : unit.resolveReference image.decodeContaining reference with
      | error error =>
          obtain ⟨offset, rfl, outside, fails⟩ := resolveReference_eq_error_iff.mp outcome
          exact absurd ⟨offset, refers, outside, fails⟩ (ends.unfailing error)
      | ok target? =>
          cases target? with
          | none => rfl
          | some place =>
              have leads := (resolveReference_eq_some_iff isDecoded).mp outcome
              exact absurd ⟨reference, refers, leads⟩ (ends.nothing place.1 place.2)

/-! The way from an entry. -/

namespace Passes

variable {last : CompileUnit} {place count : Nat}

theorem isDecoded (passes : image.Passes unit index hops last place) (isDecoded : unit.IsDecoded) :
    last.IsDecoded := by
  induction passes with
  | start => exact isDecoded
  | further _ next _ induction => exact next.isDecoded induction

/-- The search goes on from where unnamed entries lead, with as many hops less. -/
theorem nameWithinHops_eq (passes : image.Passes unit index hops last place)
    (isDecoded : unit.IsDecoded) (others : Nat) :
    unit.nameWithinHops image.decodeContaining (hops + others) index =
      last.nameWithinHops image.decodeContaining others place := by
  induction passes generalizing others with
  | start => rw [Nat.zero_add]
  | further passes next unnamed induction =>
      rw [Nat.add_right_comm, Nat.add_assoc, induction (others + 1),
        nameWithinHops_of_next (passes.isDecoded isDecoded) next,
        CompileUnit.unnamed_iff.mp unnamed]
      rfl

theorem append (passes : image.Passes unit index hops last place)
    (others : image.Passes last place count target position) :
    image.Passes unit index (hops + count) target position := by
  induction others with
  | start => exact passes
  | further _ next unnamed induction => exact .further induction next unnamed

/-- The way stops halfway at some entry. -/
theorem exists_front (passes : image.Passes unit index hops last place) (fewer : count ≤ hops) :
    ∃ middle between, image.Passes unit index count middle between := by
  induction passes with
  | start =>
      cases Nat.le_zero.mp fewer
      exact ⟨_, _, .start⟩
  | further passes next unnamed induction =>
      rcases Nat.lt_or_eq_of_le fewer with less | rfl
      · exact induction (Nat.le_of_lt_succ less)
      · exact ⟨_, _, .further passes next unnamed⟩

/-- A circle can be passed as often as one likes. -/
theorem around (circle : image.Passes unit index hops unit index) (rounds : Nat) :
    image.Passes unit index (rounds * hops) unit index := by
  induction rounds with
  | zero =>
      rw [Nat.zero_mul]
      exact .start
  | succ rounds induction =>
      rw [Nat.succ_mul]
      exact induction.append circle

end Passes

theorem exists_qualified (isDecoded : unit.IsDecoded) (named : unit.Named index name) :
    ∃ qualified, unit.Qualified index qualified := by
  obtain ⟨_, _, decoded⟩ := isDecoded
  exact ⟨_, (CompileUnit.qualified_iff decoded.nested).mpr ⟨name, named, rfl⟩⟩

/-- One more hop is made only where the way has led through unnamed entries so far. -/
theorem exists_gives (image : DebugImage) (isDecoded : unit.IsDecoded) (index limit : Nat) :
    ∃ result, image.Gives unit index limit result := by
  induction limit with
  | zero => exact ⟨_, .exhausted .start⟩
  | succ limit induction =>
      obtain ⟨_, ⟨fewer, passes, next, names⟩ | ⟨fewer, passes, ends⟩ | ⟨fewer, passes, fails⟩ |
        passes⟩ := induction
      · exact ⟨_, .name (Nat.lt_succ_of_lt fewer) passes next names⟩
      · exact ⟨_, .ended (Nat.lt_succ_of_lt fewer) passes ends⟩
      · exact ⟨_, .failed (Nat.lt_succ_of_lt fewer) passes fails⟩
      · rename_i place last
        by_cases next : ∃ target position, image.Next last place target position
        · obtain ⟨target, position, next⟩ := next
          by_cases named : ∃ name, target.Named position name
          · obtain ⟨name, named⟩ := named
            obtain ⟨_, names⟩ :=
              exists_qualified (next.isDecoded (passes.isDecoded isDecoded)) named
            exact ⟨_, .name (Nat.lt_succ_self _) passes next names⟩
          · exact ⟨_, .exhausted (.further passes next (not_exists.mp named))⟩
        · by_cases fails : ∃ error, image.NextFails last place error
          · obtain ⟨error, fails⟩ := fails
            exact ⟨_, .failed (Nat.lt_succ_self _) passes fails⟩
          · have ends : image.Ends last place := {
              nothing := fun target position leads => next ⟨target, position, leads⟩
              unfailing := not_exists.mp fails }
            exact ⟨_, .ended (Nat.lt_succ_self _) passes ends⟩

variable {limit : Nat} {result : Except DecodeError (Option String)}

/-- The search makes the hops through unnamed entries, and one more. -/
theorem Gives.nameWithinHops_eq (gives : image.Gives unit index limit result)
    (isDecoded : unit.IsDecoded) :
    unit.nameWithinHops image.decodeContaining limit index = result := by
  cases gives with
  | name fewer passes next names =>
      obtain ⟨others, rfl⟩ := Nat.exists_eq_add_of_lt fewer
      have lastDecoded := passes.isDecoded isDecoded
      obtain ⟨_, _, decoded⟩ := next.isDecoded lastDecoded
      obtain ⟨own, named, rfl⟩ := (CompileUnit.qualified_iff decoded.nested).mp names
      rw [Nat.add_assoc, passes.nameWithinHops_eq isDecoded,
        nameWithinHops_of_next lastDecoded next, CompileUnit.named_iff.mp named]
      rfl
  | ended fewer passes ends =>
      obtain ⟨others, rfl⟩ := Nat.exists_eq_add_of_lt fewer
      rw [Nat.add_assoc, passes.nameWithinHops_eq isDecoded,
        nameWithinHops_of_ends (passes.isDecoded isDecoded) ends]
  | failed fewer passes fails =>
      obtain ⟨others, rfl⟩ := Nat.exists_eq_add_of_lt fewer
      rw [Nat.add_assoc, passes.nameWithinHops_eq isDecoded, nameWithinHops_of_nextFails fails]
  | exhausted passes => exact passes.nameWithinHops_eq isDecoded 0

theorem nameWithinHops_eq_iff (isDecoded : unit.IsDecoded) :
    unit.nameWithinHops image.decodeContaining limit index = result ↔
      image.Gives unit index limit result := by
  constructor
  · rintro rfl
    obtain ⟨result, gives⟩ := exists_gives image isDecoded index limit
    rwa [gives.nameWithinHops_eq isDecoded]
  · exact fun gives => gives.nameWithinHops_eq isDecoded

/-- The search for a qualified name follows references to declarations, each in the unit that it
stands in or refers to, whatever was decoded before. It answers with a name if and only if one of
the first eight entries on the way is named and none before it is, and then with that name behind
the names of the classes, structures, unions and namespaces around it. There is no name if and only
if the way ends before, or leads through eight unnamed entries, as it does where it comes to a
circle of them. An error is one of the search for the unit of an entry on the way. -/
theorem first_named_target_answers [LinkageNames] (image : DebugImage) (operations : List Operation)
    {sections : DebugSections} {start : Nat} {unit : CompileUnit}
    (decoded : CompileUnit.decode sections start = .ok unit) (index : Nat) :
    (∀ name, image.qualifiedNameAnswer operations unit index = .ok (some name) ↔
      ∃ hops < 8, ∃ last place target position, image.Passes unit index hops last place ∧
        image.Next last place target position ∧ target.Qualified position name) ∧
    (∀ hops last place target position own, hops < 8 →
      image.Passes unit index hops last place → image.Next last place target position →
        target.Named position own → ∃ name, target.Qualified position name ∧
          image.qualifiedNameAnswer operations unit index = .ok (some name)) ∧
    (image.qualifiedNameAnswer operations unit index = .ok none ↔
      (∃ hops < 8, ∃ last place, image.Passes unit index hops last place ∧
        image.Ends last place) ∨
      ∃ last place, image.Passes unit index 8 last place) ∧
    (∀ error, image.qualifiedNameAnswer operations unit index = .error error ↔
      ∃ hops < 8, ∃ last place, image.Passes unit index hops last place ∧
        image.NextFails last place error) ∧
    ∀ hops length last place, image.Passes unit index hops last place → 0 < length →
      image.Passes last place length last place →
        image.qualifiedNameAnswer operations unit index = .ok none := by
  have isDecoded : unit.IsDecoded := ⟨_, _, CompileUnit.decodedAt_of_decode decoded⟩
  have answers (result : Except DecodeError (Option String)) :
      image.qualifiedNameAnswer operations unit index = result ↔
        image.Gives unit index 8 result := by
    rw [qualifiedNameAnswer_eq]
    exact nameWithinHops_eq_iff isDecoded
  refine ⟨?_, ?_, ?_, ?_, ?_⟩
  · intro name
    rw [answers]
    constructor
    · intro gives
      cases gives with
      | name fewer passes next names => exact ⟨_, fewer, _, _, _, _, passes, next, names⟩
    · rintro ⟨hops, fewer, last, place, target, position, passes, next, names⟩
      exact .name fewer passes next names
  · intro hops last place target position own fewer passes next named
    obtain ⟨name, names⟩ := exists_qualified (next.isDecoded (passes.isDecoded isDecoded)) named
    exact ⟨name, names, (answers _).mpr (.name fewer passes next names)⟩
  · rw [answers]
    constructor
    · intro gives
      cases gives with
      | ended fewer passes ends => exact .inl ⟨_, fewer, _, _, passes, ends⟩
      | exhausted passes => exact .inr ⟨_, _, passes⟩
    · rintro (⟨hops, fewer, last, place, passes, ends⟩ | ⟨last, place, passes⟩)
      · exact .ended fewer passes ends
      · exact .exhausted passes
  · intro error
    rw [answers]
    constructor
    · intro gives
      cases gives with
      | failed fewer passes fails => exact ⟨_, fewer, _, _, passes, fails⟩
    · rintro ⟨hops, fewer, last, place, passes, fails⟩
      exact .failed fewer passes fails
  · intro hops length last place passes positive circle
    have long : 8 ≤ hops + 8 * length := by omega
    obtain ⟨middle, between, front⟩ := (passes.append (circle.around 8)).exists_front long
    exact (answers _).mpr (.exhausted front)

def crossReferring : Abbreviation where
  code := 1
  tag := .subprogram
  hasChildren := false
  attributes := [{ name := .specification, form := Form.sectionReference.code }]

def namedScope : Abbreviation where
  code := 2
  tag := .moduleNamespace
  hasChildren := true
  attributes := [{ name := .name, form := Form.inlineString.code }]

def namedFunction : Abbreviation :=
  { namedScope with code := 3, tag := .subprogram, hasChildren := false }

def referringBack : Abbreviation where
  code := 4
  tag := .subprogram
  hasChildren := false
  attributes := [{ name := .specification, form := Form.reference1.code }]

def originating : Abbreviation where
  code := 5
  tag := .subprogram
  hasChildren := false
  attributes := [{ name := .abstractOrigin, form := Form.reference1.code }]

/-- Two units and a byte that is no header. The entries of the first unit refer to the second unit
and behind it. In the second one, an entry refers back to a named one, and another to itself. -/
def linkedImage : DebugImage where
  sections := {
    info := [17, 0, 0, 0, 4, 0, 0, 0, 0, 0, 8, 1, 39, 0, 0, 0, 1, 43, 0, 0, 0] ++
      [18, 0, 0, 0, 4, 0, 0, 0, 0, 0, 8, 2, 110, 0, 3, 102, 0, 0, 4, 14, 5, 20] ++ [255]
    abbreviations := [1, 46, 0, 0x47, 0x10, 0, 0, 2, 57, 1, 3, 8, 0, 0, 3, 46, 0, 3, 8, 0, 0,
      4, 46, 0, 0x47, 0x11, 0, 0, 5, 46, 0, 0x31, 0x11, 0, 0, 0]
    addressRanges := []
    lines := []
    strings := []
    rangeLists := [] }
  index := { sets := [] }

def referringUnit : CompileUnit where
  header := {
    offset := 0, unitLength := 17, version := .four, abbreviationOffset := 0
    addressWidth := .eight }
  data := [1, 39, 0, 0, 0, 1, 43, 0, 0, 0]
  abbreviations := {
    declarations := [originating, referringBack, namedFunction, namedScope, crossReferring] }
  toEntryTable := .ofEntries [
    crossReferring.entry [.sectionReference 39] 0 none,
    crossReferring.entry [.sectionReference 43] 5 none]
  lineTable := none

def declaringUnit : CompileUnit where
  header := {
    offset := 21, unitLength := 18, version := .four, abbreviationOffset := 0
    addressWidth := .eight }
  data := [2, 110, 0, 3, 102, 0, 0, 4, 14, 5, 20]
  abbreviations := referringUnit.abbreviations
  toEntryTable := .ofEntries [
    namedScope.entry [.inlineString "n"] 0 none,
    namedFunction.entry [.inlineString "f"] 3 (some 0),
    { EntryBody.null 6 with parent := some 0 },
    referringBack.entry [.reference1 14] 7 none,
    originating.entry [.reference1 20] 9 none]
  lineTable := none

theorem linked_decodes : linkedImage.decodeUnit 0 = .ok referringUnit ∧
    linkedImage.decodeUnit 21 = .ok declaringUnit := by
  decide +kernel

section Samples

open scoped LinkageNames

theorem first_named_target_answers_linked :
    linkedImage.qualifiedNameAnswer [.unit 43] referringUnit 0 = .ok (some "n::f") ∧
      linkedImage.qualifiedNameAnswer [] referringUnit 1 =
        .error { source := .info, offset := 43, fault := .unexpectedEnd } ∧
      linkedImage.qualifiedNameAnswer [] declaringUnit 4 = .ok none := by
  have first : linkedImage.HasUnit referringUnit := ⟨.start, linked_decodes.1⟩
  have second : linkedImage.HasUnit declaringUnit :=
    ⟨first.reached.next first.header_decodes, linked_decodes.2⟩
  have unnamed (index : Nat)
      (nameless : (declaringUnit.entries[index]?).bind (·.name?) = none) :
      declaringUnit.Unnamed index :=
    CompileUnit.unnamed_iff.mpr nameless
  refine ⟨?_, ?_, ?_⟩
  · have across : linkedImage.Next referringUnit 0 declaringUnit 3 :=
      ⟨_, .specification rfl rfl, .outside (by decide) second ⟨_, rfl, by decide⟩⟩
    have back : linkedImage.Next declaringUnit 3 declaringUnit 1 :=
      ⟨_, .specification rfl rfl, .fromHeader ⟨_, rfl, by decide⟩⟩
    have outwards : Entry.Climbs declaringUnit.entries (some 0) [0] := .visit rfl .finished
    have named : declaringUnit.Named 1 "f" := ⟨_, rfl, rfl⟩
    have joined : "::".intercalate ((declaringUnit.scopeNames [0]).reverse ++ ["f"]) = "n::f" := by
      decide +kernel
    have names : declaringUnit.Qualified 1 "n::f" := joined ▸ .intro named outwards
    exact ((first_named_target_answers linkedImage [.unit 43] linked_decodes.1 0).1 "n::f").mpr
      ⟨1, by decide, _, _, _, _, .further .start across (unnamed 3 rfl), back, names⟩
  · have ends : UnitHeader.Reached linkedImage.sections.info 43 :=
      second.reached.next second.header_decodes
    have broken : UnitHeader.decode linkedImage.sections.info 43 =
        .error { source := .info, offset := 43, fault := .unexpectedEnd } := by
      decide +kernel
    have fails : linkedImage.NextFails referringUnit 1
        { source := .info, offset := 43, fault := .unexpectedEnd } :=
      ⟨43, .specification rfl rfl, by decide, .header ends (by decide) (by decide) broken⟩
    exact ((first_named_target_answers linkedImage [] linked_decodes.1 1).2.2.2.1 _).mpr
      ⟨0, by decide, _, _, .start, fails⟩
  · have circle : linkedImage.Next declaringUnit 4 declaringUnit 4 :=
      ⟨_, .abstractOrigin rfl rfl rfl, .fromHeader ⟨_, rfl, by decide⟩⟩
    exact (first_named_target_answers linkedImage [] linked_decodes.2 4).2.2.2.2 0 1 _ _ .start
      Nat.one_pos (.further .start circle (unnamed 4 rfl))

end Samples

end DebugImage

end Symbolication
