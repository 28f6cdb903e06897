import Mathlib.Data.List.Forall2
import Symbolication.CompileUnit.Basic
import Symbolication.Proofs.Abbreviation
import Symbolication.Proofs.Entry.FormValue
import Symbolication.Proofs.Entry.Table

/-!
Forests of entries. A forest is written depth first, each entry in front of its children; reading it
gives its entries back in the same order, every one at its place and in its scope.
-/

namespace Symbolication

namespace Abbreviation

/-- Whether the values can be written as the attributes of an entry with this layout. -/
def Admits (context : AttributeContext) (declaration : Abbreviation) (values : List FormValue) :
    Prop :=
  List.Forall₂ (fun layout value => layout.Admits value ∧ value.Fits context)
    declaration.attributes values

def encodeAttributes (context : AttributeContext) (layouts : List AttributeDeclaration)
    (values : List FormValue) : Bytes :=
  (List.zipWith (Attribute.encode context) layouts values).flatten

def encodeEntry (context : AttributeContext) (declaration : Abbreviation)
    (values : List FormValue) : Bytes :=
  Leb128.encodeUnsigned declaration.code.toNat ++
    encodeAttributes context declaration.attributes values

def entry (declaration : Abbreviation) (values : List FormValue) (offset : Nat)
    (parent : Option Nat) : Entry where
  offset := offset
  code := declaration.code
  tag := declaration.tag
  hasChildren := declaration.hasChildren
  attributes := List.zipWith Attribute.ofValue declaration.attributes values
  parent := parent

end Abbreviation

/-- A null entry that closes the scope of the entry at `index`. -/
def Entry.closing (offset index : Nat) : Entry :=
  { EntryBody.null offset with parent := some index }

/-- A row of entries in one scope. Those that announce children each have a forest of their own. -/
inductive EntryForest where
  | empty
  | leaf (declaration : Abbreviation) (values : List FormValue) (siblings : EntryForest)
  | scope (declaration : Abbreviation) (values : List FormValue)
      (children siblings : EntryForest)
deriving Repr

namespace EntryForest

/-- Every entry is laid out by a declaration of the table that says whether it has children. -/
def WellFormed (table : AbbreviationTable) (context : AttributeContext) : EntryForest → Prop
  | empty => True
  | leaf declaration values siblings =>
      declaration ∈ table.declarations ∧ declaration.hasChildren = false ∧
        declaration.Admits context values ∧ siblings.WellFormed table context
  | scope declaration values children siblings =>
      declaration ∈ table.declarations ∧ declaration.hasChildren = true ∧
        declaration.Admits context values ∧ children.WellFormed table context ∧
        siblings.WellFormed table context

/-- Entries depth first, with a zero code behind the children of each that may have some. -/
def encode (context : AttributeContext) : EntryForest → Bytes
  | empty => []
  | leaf declaration values siblings =>
      declaration.encodeEntry context values ++ siblings.encode context
  | scope declaration values children siblings =>
      declaration.encodeEntry context values ++
        (children.encode context ++ ([0] ++ siblings.encode context))

def size : EntryForest → Nat
  | empty => 0
  | leaf _ _ siblings => siblings.size + 1
  | scope _ _ children siblings => children.size + siblings.size + 2

/-- The entries in order, when the first has `offset` bytes and `index` entries before it and
`parent` is the entry around them all. -/
def entries (context : AttributeContext) : EntryForest → Nat → Nat → Option Nat → List Entry
  | empty, _, _, _ => []
  | leaf declaration values siblings, offset, index, parent =>
      let behind := offset + (declaration.encodeEntry context values).length
      declaration.entry values offset parent ::
        siblings.entries context behind (index + 1) parent
  | scope declaration values children siblings, offset, index, parent =>
      let inside := offset + (declaration.encodeEntry context values).length
      let closing := inside + (children.encode context).length
      declaration.entry values offset parent ::
        (children.entries context inside (index + 1) (some index) ++
          .closing closing index ::
            siblings.entries context (closing + 1) (index + children.size + 2) parent)

variable {table : AbbreviationTable} {context : AttributeContext}

theorem length_entries (forest : EntryForest) (offset index : Nat) (parent : Option Nat) :
    (forest.entries context offset index parent).length = forest.size := by
  induction forest generalizing offset index parent with
  | empty => rfl
  | leaf declaration values siblings siblingsInduction =>
      simp only [entries, size, List.length_cons, siblingsInduction]
  | scope declaration values children siblings childrenInduction siblingsInduction =>
      simp only [entries, size, List.length_cons, List.length_append, childrenInduction,
        siblingsInduction]
      omega

end EntryForest

namespace AbbreviationTable

structure Distinct (table : AbbreviationTable) : Prop where
  codes : (table.declarations.map (·.code)).Nodup
  nonzero : ∀ declaration ∈ table.declarations, declaration.code ≠ 0

end AbbreviationTable

namespace Abbreviation

variable {table : AbbreviationTable} {context : AttributeContext} {declaration : Abbreviation}
  {values : List FormValue} {cursor : Cursor} {suffix : Bytes}

theorem attributes_reads {layouts : List AttributeDeclaration}
    (admits : List.Forall₂ (fun layout value => layout.Admits value ∧ value.Fits context)
      layouts values) :
    (layouts.mapM (Attribute.decoder context)).Reads cursor
      (encodeAttributes context layouts values) suffix
      (List.zipWith Attribute.ofValue layouts values) := by
  unfold encodeAttributes
  induction admits generalizing cursor with
  | nil => exact Decoder.pure_reads []
  | cons first others induction =>
      rw [List.zipWith_cons_cons, List.zipWith_cons_cons, List.flatten_cons]
      exact Decoder.mapM_cons_reads (Attribute.decoder_reads first.2 first.1) induction

theorem encodeEntry_ne_nil (context : AttributeContext) (declaration : Abbreviation)
    (values : List FormValue) : declaration.encodeEntry context values ≠ [] := by
  unfold encodeEntry
  exact List.append_ne_nil_of_left_ne_nil (Leb128.encodeUnsigned_ne_nil _) _

theorem body_reads (distinct : table.Distinct) (member : declaration ∈ table.declarations)
    (admits : declaration.Admits context values) {first start offset : Nat}
    (place : start = first + offset) (parent : Option Nat) :
    (EntryBody.decoder table context first start declaration.code).Reads cursor
      (encodeAttributes context declaration.attributes values) suffix
      (declaration.entry values offset parent).toEntryBody := by
  have distance : start - first = offset := by omega
  have found : table.find? declaration.code = some declaration :=
    AbbreviationTable.find?_code_eq_some distinct.codes member
  unfold EntryBody.decoder
  rw [if_neg (distinct.nonzero declaration member), found, distance]
  exact (attributes_reads admits).bind_last (Decoder.pure_reads _)

end Abbreviation

namespace EntryBody

/-- One round of reading a row whose first entry stands at `first`. -/
def next (table : AbbreviationTable) (context : AttributeContext) (first : Nat) :
    Decoder (Option EntryBody) :=
  .itemIfLeft (.located .unsigned) fun (start, code) =>
    some <$> decoder table context first start code

variable {table : AbbreviationTable} {context : AttributeContext} {cursor : Cursor}
  {suffix : Bytes} {first offset : Nat}

theorem next_reads_entry (distinct : table.Distinct) {declaration : Abbreviation}
    (member : declaration ∈ table.declarations) {values : List FormValue}
    (admits : declaration.Admits context values) (place : cursor.offset = first + offset)
    (parent : Option Nat) :
    (next table context first).Reads cursor (declaration.encodeEntry context values) suffix
      (some (declaration.entry values offset parent).toEntryBody) := by
  apply Decoder.itemIfLeft_reads
  · exact List.append_ne_nil_of_left_ne_nil (declaration.encodeEntry_ne_nil context values) _
  · apply (Decoder.located_reads (Decoder.unsigned_reads declaration.code)).bind
    exact (declaration.body_reads distinct member admits place parent).map some

theorem next_reads_closing (place : cursor.offset = first + offset) (index : Nat) :
    (next table context first).Reads cursor [0] suffix
      (some (Entry.closing offset index).toEntryBody) := by
  have distance : cursor.offset - first = offset := by omega
  apply Decoder.itemIfLeft_reads
  · simp
  · apply (Decoder.located_reads Decoder.unsigned_reads_zero).bind_last
    unfold decoder
    dsimp only
    rw [if_pos rfl, distance]
    exact (Decoder.pure_reads _).map some

end EntryBody

namespace EntryForest

variable {table : AbbreviationTable} {context : AttributeContext} {cursor : Cursor}
  {behind suffix : Bytes} {first offset : Nat} {others : List EntryBody}

section Row

variable {consumes : ∀ {value cursor next},
    (EntryBody.next table context first).run cursor = .ok (some value, next) →
      next.left < cursor.left}

/-- A row goes on behind a forest as if it had begun there. -/
theorem items_reads_entries (distinct : table.Distinct) (forest : EntryForest)
    (wellFormed : forest.WellFormed table context) (index : Nat) (parent : Option Nat)
    (place : cursor.offset = first + offset)
    (readsOthers : (Decoder.items (EntryBody.next table context first) consumes).Reads
      (cursor.after (forest.encode context) (behind ++ suffix)) behind suffix others) :
    (Decoder.items (EntryBody.next table context first) consumes).Reads cursor
      (forest.encode context ++ behind) suffix
      ((forest.entries context offset index parent).map Entry.toEntryBody ++ others) := by
  induction forest generalizing cursor behind offset index parent others with
  | empty =>
      intro ahead
      have stays : cursor.after (encode context empty) (behind ++ suffix) = cursor :=
        Cursor.after_nil ahead
      rw [stays] at readsOthers
      exact readsOthers.run ahead
  | leaf declaration values siblings siblingsInduction =>
      obtain ⟨member, _, admits, siblingsFormed⟩ := wellFormed
      simp only [entries, List.map_cons, List.cons_append]
      simp only [encode, List.append_assoc]
      apply Decoder.items_cons_reads
      · exact EntryBody.next_reads_entry distinct member admits place parent
      · apply siblingsInduction siblingsFormed
        · rw [Cursor.offset_after, place, Nat.add_assoc]
        · rw [Cursor.after_after]
          exact readsOthers
  | scope declaration values children siblings childrenInduction siblingsInduction =>
      obtain ⟨member, _, admits, childrenFormed, siblingsFormed⟩ := wellFormed
      simp only [entries, List.map_cons, List.map_append, List.append_assoc, List.cons_append]
      simp only [encode, List.append_assoc]
      apply Decoder.items_cons_reads
      · exact EntryBody.next_reads_entry distinct member admits place parent
      · apply childrenInduction childrenFormed
        · rw [Cursor.offset_after, place, Nat.add_assoc]
        · apply Decoder.items_cons_reads
          · -- The zero code stands behind the last of the children.
            apply EntryBody.next_reads_closing
            simp only [Cursor.offset_after, place]
            omega
          · apply siblingsInduction siblingsFormed
            · simp only [Cursor.offset_after, place, List.length_singleton]
              omega
            · rw [encode] at readsOthers
              simp only [Cursor.after_after, List.append_assoc] at readsOthers ⊢
              exact readsOthers

end Row

theorem row_reads (distinct : table.Distinct) (forest : EntryForest)
    (wellFormed : forest.WellFormed table context) :
    (EntryBody.row table context).Reads cursor (forest.encode context) []
      ((forest.entries context 0 0 none).map Entry.toEntryBody) := by
  apply Decoder.offset_reads.bind_nil
  rw [← List.append_nil (forest.encode context), ← List.append_nil (List.map _ _)]
  apply items_reads_entries distinct forest wellFormed 0 none
  · rfl
  · exact Decoder.items_nil_reads Decoder.itemIfLeft_finished

end EntryForest

namespace Nesting

theorem entries_add_toEntryBody {nesting : Nesting} {entry : Entry}
    (inside : nesting.scopes.head? = entry.parent) :
    (nesting.add entry.toEntryBody).entries.toList = nesting.entries.toList ++ [entry] := by
  rw [entries_add, inside]

theorem scopesAfter_closing (scopes : List Nat) (current offset index : Nat) :
    scopesAfter scopes current (Entry.closing offset index).toEntryBody = scopes.tail := rfl

theorem scopesAfter_entry {declaration : Abbreviation} (nonzero : declaration.code ≠ 0)
    (scopes : List Nat) (current offset : Nat) (values : List FormValue) (parent : Option Nat) :
    scopesAfter scopes current (declaration.entry values offset parent).toEntryBody =
      if declaration.hasChildren then current :: scopes else scopes := by
  unfold scopesAfter EntryBody.isNull Abbreviation.entry
  simp only [nonzero, decide_false, Bool.false_eq_true, if_false]

/-- The entries have been added, and the scopes are open that were open before. -/
structure Takes (nesting : Nesting) (added : List Entry) (behind : Nesting) : Prop where
  entries : behind.entries.toList = nesting.entries.toList ++ added
  scopes : behind.scopes = nesting.scopes

namespace Takes

variable {nesting middle behind : Nesting} {front others : List Entry} {entry : Entry}

protected theorem append (takes : nesting.Takes front middle)
    (takesOthers : middle.Takes others behind) : nesting.Takes (front ++ others) behind where
  entries := by rw [takesOthers.entries, takes.entries, List.append_assoc]
  scopes := takesOthers.scopes.trans takes.scopes

theorem length_eq (takes : nesting.Takes front behind) :
    behind.entries.toList.length = nesting.entries.toList.length + front.length := by
  rw [takes.entries, List.length_append]

protected theorem leaf (inside : nesting.scopes.head? = entry.parent)
    (unchanged : scopesAfter nesting.scopes nesting.entries.toList.length entry.toEntryBody =
      nesting.scopes) :
    nesting.Takes [entry] (nesting.add entry.toEntryBody) where
  entries := entries_add_toEntryBody inside
  scopes := (scopes_add nesting entry.toEntryBody).trans unchanged

/-- The children find their scope innermost, and the closing entry finds it so again. -/
protected theorem scope (inside : nesting.scopes.head? = entry.parent)
    (opens : scopesAfter nesting.scopes nesting.entries.toList.length entry.toEntryBody =
      nesting.entries.toList.length :: nesting.scopes)
    (takes : (nesting.add entry.toEntryBody).Takes others middle) (offset : Nat) :
    nesting.Takes (entry :: (others ++ [.closing offset nesting.entries.toList.length]))
      (middle.add (Entry.closing offset nesting.entries.toList.length).toEntryBody) where
  entries := by
    have innermost : middle.scopes.head? = some nesting.entries.toList.length := by
      rw [takes.scopes, scopes_add, opens, List.head?_cons]
    rw [entries_add_toEntryBody innermost, takes.entries, entries_add_toEntryBody inside]
    simp
  scopes := by
    rw [scopes_add, scopesAfter_closing, takes.scopes, scopes_add, opens, List.tail_cons]

end Takes

end Nesting

namespace EntryForest

variable {table : AbbreviationTable} {context : AttributeContext} {offset index : Nat}
  {parent : Option Nat}

/-- A forest that is put into a scope leaves the open scopes as they were. -/
theorem takes_entries (distinct : table.Distinct) (forest : EntryForest)
    (wellFormed : forest.WellFormed table context) {nesting : Nesting}
    (counted : nesting.entries.toList.length = index) (inside : nesting.scopes.head? = parent) :
    nesting.Takes (forest.entries context offset index parent)
      (nesting.addAll ((forest.entries context offset index parent).map Entry.toEntryBody)) := by
  induction forest generalizing offset index parent nesting with
  | empty => exact ⟨(List.append_nil _).symm, rfl⟩
  | leaf declaration values siblings siblingsInduction =>
      obtain ⟨member, isLeaf, _, siblingsFormed⟩ := wellFormed
      subst counted
      have first : nesting.Takes [declaration.entry values offset parent]
          (nesting.add (declaration.entry values offset parent).toEntryBody) := by
        refine .leaf inside ?_
        rw [Nesting.scopesAfter_entry (distinct.nonzero declaration member), isLeaf]
        rfl
      simp only [entries, List.map_cons, Nesting.addAll_cons]
      refine first.append (siblingsInduction siblingsFormed first.length_eq ?_)
      rw [first.scopes, inside]
  | scope declaration values children siblings childrenInduction siblingsInduction =>
      obtain ⟨member, isScope, _, childrenFormed, siblingsFormed⟩ := wellFormed
      subst counted
      have opens : Nesting.scopesAfter nesting.scopes nesting.entries.toList.length
          (declaration.entry values offset parent).toEntryBody =
            nesting.entries.toList.length :: nesting.scopes := by
        rw [Nesting.scopesAfter_entry (distinct.nonzero declaration member), isScope]
        rfl
      let start := offset + (declaration.encodeEntry context values).length
      let stop := start + (children.encode context).length
      let first := declaration.entry values offset parent
      have innermost : (nesting.add first.toEntryBody).scopes.head? =
          some nesting.entries.toList.length := by
        rw [Nesting.scopes_add, opens, List.head?_cons]
      have filled : (nesting.add first.toEntryBody).Takes (children.entries context start
          (nesting.entries.toList.length + 1) (some nesting.entries.toList.length)) _ :=
        childrenInduction childrenFormed (nesting.length_add _) innermost
      have closed := Nesting.Takes.scope inside opens filled stop
      have count := closed.length_eq
      rw [List.length_cons, List.length_append, List.length_singleton, length_entries] at count
      have outside := (congrArg List.head? closed.scopes).trans inside
      have others : Nesting.Takes _ (siblings.entries context (stop + 1)
          (nesting.entries.toList.length + children.size + 2) parent) _ :=
        siblingsInduction siblingsFormed count outside
      have whole := closed.append others
      rw [List.cons_append, List.append_assoc] at whole
      simp only [entries, List.map_cons, List.map_append, Nesting.addAll_cons,
        Nesting.addAll_append]
      exact whole

theorem offset_within (forest : EntryForest) :
    ∀ entry ∈ forest.entries context offset index parent,
      offset ≤ entry.offset ∧ entry.offset < offset + (forest.encode context).length := by
  induction forest generalizing offset index parent with
  | empty => simp [entries]
  | leaf declaration values siblings siblingsInduction =>
      have positive := List.length_pos_iff.mpr (declaration.encodeEntry_ne_nil context values)
      intro entry member
      simp only [entries, List.mem_cons] at member
      simp only [encode, List.length_append]
      rcases member with rfl | isSibling
      · simp only [Abbreviation.entry]
        omega
      · have bounds := siblingsInduction entry isSibling
        omega
  | scope declaration values children siblings childrenInduction siblingsInduction =>
      have positive := List.length_pos_iff.mpr (declaration.encodeEntry_ne_nil context values)
      intro entry member
      simp only [entries, List.mem_cons, List.mem_append] at member
      simp only [encode, List.length_append, List.length_singleton]
      rcases member with rfl | isChild | rfl | isSibling
      · simp only [Abbreviation.entry]
        omega
      · have bounds := childrenInduction entry isChild
        omega
      · simp only [Entry.closing, EntryBody.null]
        omega
      · have bounds := siblingsInduction entry isSibling
        omega

theorem entries_increasing (forest : EntryForest) :
    (forest.entries context offset index parent).Pairwise
      fun earlier later => earlier.offset < later.offset := by
  induction forest generalizing offset index parent with
  | empty => exact .nil
  | leaf declaration values siblings siblingsInduction =>
      have positive := List.length_pos_iff.mpr (declaration.encodeEntry_ne_nil context values)
      simp only [entries, List.pairwise_cons]
      refine ⟨?_, siblingsInduction⟩
      intro later isSibling
      have bounds := siblings.offset_within later isSibling
      simp only [Abbreviation.entry]
      omega
  | scope declaration values children siblings childrenInduction siblingsInduction =>
      have positive := List.length_pos_iff.mpr (declaration.encodeEntry_ne_nil context values)
      simp only [entries, List.pairwise_cons, List.pairwise_append]
      -- What is left are the seams: behind the first entry, behind the closing one, and between the
      -- children and everything that follows them.
      refine ⟨?_, childrenInduction, ⟨?_, siblingsInduction⟩, ?_⟩
      · intro later member
        simp only [List.mem_append, List.mem_cons] at member
        simp only [Abbreviation.entry]
        rcases member with isChild | rfl | isSibling
        · have bounds := children.offset_within later isChild
          omega
        · simp only [Entry.closing, EntryBody.null]
          omega
        · have bounds := siblings.offset_within later isSibling
          omega
      · intro later isSibling
        have bounds := siblings.offset_within later isSibling
        simp only [Entry.closing, EntryBody.null]
        omega
      · intro earlier isChild later member
        have bounds := children.offset_within earlier isChild
        rw [List.mem_cons] at member
        rcases member with rfl | isSibling
        · simp only [Entry.closing, EntryBody.null]
          omega
        · have laterBounds := siblings.offset_within later isSibling
          omega

end EntryForest

namespace EntryForest

variable {table : AbbreviationTable} {context : AttributeContext}

theorem ofRow_entries (distinct : table.Distinct) (forest : EntryForest)
    (wellFormed : forest.WellFormed table context) :
    EntryTable.ofRow ((forest.entries context 0 0 none).map Entry.toEntryBody) =
      .ofEntries (forest.entries context 0 0 none) := by
  have takes : Nesting.empty.Takes (forest.entries context 0 0 none) _ :=
    forest.takes_entries distinct wellFormed rfl rfl
  rw [EntryTable.ofRow_eq]
  exact congrArg EntryTable.ofEntries takes.entries

theorem decoder_reads (distinct : table.Distinct) (forest : EntryForest)
    (wellFormed : forest.WellFormed table context) {cursor : Cursor} :
    (EntryTable.decoder table context).Reads cursor (forest.encode context) []
      (.ofEntries (forest.entries context 0 0 none)) :=
  (forest.row_reads distinct wellFormed).mapTo (forest.ofRow_entries distinct wellFormed)

/-- A forest that is written depth first is read back as it was: its entries in order, those that
close scopes among them, each at the place of its code and in the scope it was put in. The map that
is filled on the way leads from an offset to the index of the entry that begins there, and to
nothing from any other offset. -/
theorem decoder_encode_forest (distinct : table.Distinct) (forest : EntryForest)
    (wellFormed : forest.WellFormed table context) (cursor : Cursor)
    (ahead : cursor.rest = forest.encode context) :
    ∃ decoded, (EntryTable.decoder table context).run cursor =
        .ok (decoded, cursor.after (forest.encode context) []) ∧
      decoded.entries = forest.entries context 0 0 none ∧
      ∀ offset index, decoded.indexAt? offset = some index ↔
        ∃ entry, decoded.entries[index]? = some entry ∧ entry.offset = offset :=
  ⟨_, (forest.decoder_reads distinct wellFormed).run (ahead.trans (List.append_nil _).symm), rfl,
    fun _ _ => EntryTable.indexAt?_eq_some_iff forest.entries_increasing⟩

/-- A scope with a name, and a subprogram whose name is kept elsewhere and whose size is written in
a form of its own choice. -/
def sampleTable : AbbreviationTable where
  declarations := [
    { code := 1, tag := .moduleNamespace, hasChildren := true
      attributes := [{ name := .name, form := Form.inlineString.code }] },
    { code := 300, tag := .subprogram, hasChildren := false
      attributes := [{ name := .name, form := Form.stringOffset.code },
        { name := .highAddress, form := Form.indirect.code }] }]

def sampleContext : AttributeContext where
  version := .two
  addressWidth := .four
  strings := [0, 97, 114, 101, 97, 0]

def sampleForest : EntryForest :=
  .scope (sampleTable.declarations[0]) [.inlineString "shape"]
    (.leaf (sampleTable.declarations[1]) [.stringOffset 1 "area", .unsignedData 200] .empty) .empty

theorem sampleForest_wellFormed : sampleForest.WellFormed sampleTable sampleContext := by
  have nameFits : '\x00' ∉ "shape".toList := by decide
  have textFits : (FormValue.stringOffset 1 "area").Fits sampleContext :=
    ⟨by decide, ⟨[], by decide⟩⟩
  refine ⟨by decide, rfl, ?_, ⟨by decide, rfl, ?_, trivial⟩, trivial⟩
  · exact .cons ⟨.inl rfl, nameFits⟩ .nil
  · exact .cons ⟨.inl rfl, textFits⟩ (.cons ⟨.inr rfl, trivial⟩ .nil)

/-- The subprogram begins behind the name of its scope, and the closing entry behind the
subprogram. -/
theorem decoder_encode_sampleForest :
    ∃ decoded, (EntryTable.decoder sampleTable sampleContext).run
        (.ofSection .info (sampleForest.encode sampleContext)) =
      .ok (decoded, (Cursor.ofSection .info (sampleForest.encode sampleContext)).after
        (sampleForest.encode sampleContext) []) ∧
      decoded.entries = sampleForest.entries sampleContext 0 0 none ∧
      decoded.indexAt? 7 = some 1 ∧ decoded.indexAt? 16 = some 2 := by
  obtain ⟨decoded, outcome, entries, indices⟩ :=
    decoder_encode_forest ⟨by decide, by decide⟩ sampleForest sampleForest_wellFormed
      (.ofSection .info (sampleForest.encode sampleContext)) rfl
  refine ⟨decoded, outcome, entries, (indices 7 1).mpr ?_, (indices 16 2).mpr ?_⟩
  · rw [entries]
    exact ⟨_, rfl, by decide +kernel⟩
  · rw [entries]
    exact ⟨_, rfl, by decide +kernel⟩

example : sampleForest.encode sampleContext =
    [1, 115, 104, 97, 112, 101, 0, 172, 2, 1, 0, 0, 0, 15, 200, 1, 0] := by
  cbv

end EntryForest

end Symbolication
