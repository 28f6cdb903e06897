import Mathlib.Data.List.Sort
import Mathlib.Order.Bounds.Basic
import Symbolication.Proofs.Entry.Row

/-!
Scopes of a row, whatever its shape. An entry that announces children opens a scope, and the next
null entry that finds it innermost closes it; scopes may stay open, and null entries may find
nothing to close. Which scopes are open before an entry is said here by the entries alone: the
list of open scopes that nesting carries along is shown to be just those, the innermost first.
-/

namespace Symbolication

namespace EntryBody

variable {abbreviations : AbbreviationTable} {context : AttributeContext}

/-- What holds of every entry that can be decoded holds of the entries of a row. -/
theorem forall_of_row {property : EntryBody → Prop}
    (each : ∀ {first start : Nat} {code : UInt64} {cursor next : Cursor} {entry : EntryBody},
      (decoder abbreviations context first start code).run cursor = .ok (entry, next) →
        property entry)
    {cursor next : Cursor} {row : List EntryBody}
    (outcome : (EntryBody.row abbreviations context).run cursor = .ok (row, next)) :
    ∀ entry ∈ row, property entry := by
  obtain ⟨first, _, _, finds⟩ := Decoder.run_bind_eq_ok.mp outcome
  intro entry member
  obtain ⟨place, final, _, reads⟩ := item_of_rowFrom finds entry member
  obtain ⟨_, _, _, body⟩ := Decoder.run_bind_eq_ok.mp reads
  exact each body

/-- A null entry announces no children. -/
def Plain (entry : EntryBody) : Prop := entry.isNull = true → entry.hasChildren = false

theorem plain_of_run {first start : Nat} {code : UInt64} {cursor next : Cursor} {entry : EntryBody}
    (outcome : (decoder abbreviations context first start code).run cursor = .ok (entry, next)) :
    entry.Plain := by
  rcases cases_of_run outcome with ⟨_, rfl⟩ | ⟨_, _, nonzero, _, _, rfl⟩
  · exact fun _ => rfl
  · exact fun isNull => absurd (of_decide_eq_true isNull) nonzero

end EntryBody

namespace Entry

/-- The entry at `scope` stands before `index` and announces children, and no null entry before
`index` closes it. -/
structure OpenBefore (entries : List Entry) (scope index : Nat) : Prop where
  earlier : scope < index
  announces : (entries[scope]?).any (·.hasChildren) = true
  unclosed : ∀ entry ∈ entries.take index, entry.isNull = true → entry.parent ≠ some scope

instance (entries : List Entry) (scope index : Nat) : Decidable (OpenBefore entries scope index) :=
  decidable_of_iff
    (scope < index ∧ (entries[scope]?).any (·.hasChildren) = true ∧
      ∀ entry ∈ entries.take index, entry.isNull = true → entry.parent ≠ some scope)
    ⟨fun ⟨earlier, announces, unclosed⟩ => ⟨earlier, announces, unclosed⟩,
      fun ⟨earlier, announces, unclosed⟩ => ⟨earlier, announces, unclosed⟩⟩

/-- The entry at `index` is a null entry and closes the scope. -/
def Closes (entries : List Entry) (index scope : Nat) : Prop :=
  ∃ entry, entries[index]? = some entry ∧ entry.isNull = true ∧ entry.parent = some scope

/-- The last of the scopes open before an index, or none where none is open. -/
def Innermost (entries : List Entry) (index : Nat) : Option Nat → Prop
  | some scope => IsGreatest { scope | OpenBefore entries scope index } scope
  | none => ∀ scope, ¬OpenBefore entries scope index

variable {entries behind : List Entry} {entry : Entry} {scope index later : Nat}

theorem OpenBefore.of_le (isOpen : OpenBefore entries scope later) (earlier : scope < index)
    (before : index ≤ later) : OpenBefore entries scope index where
  earlier := earlier
  announces := isOpen.announces
  unclosed := fun closing member =>
    isOpen.unclosed closing ((List.take_prefix_take_left before).subset member)

/-- Entries from the index on have no part in what is open before it. -/
theorem openBefore_append (inside : index ≤ entries.length) :
    OpenBefore (entries ++ behind) scope index ↔ OpenBefore entries scope index := by
  have same : (entries ++ behind).take index = entries.take index :=
    List.take_append_of_le_length inside
  constructor
  · rintro ⟨earlier, announces, unclosed⟩
    rw [List.getElem?_append_left (by omega)] at announces
    exact ⟨earlier, announces, same ▸ unclosed⟩
  · rintro ⟨earlier, announces, unclosed⟩
    refine ⟨earlier, ?_, same ▸ unclosed⟩
    rwa [List.getElem?_append_left (by omega)]

theorem innermost_append {parent : Option Nat} (inside : index ≤ entries.length) :
    Innermost (entries ++ behind) index parent ↔ Innermost entries index parent := by
  unfold Innermost
  simp only [openBefore_append inside]

/-- Only one answer is innermost. -/
theorem Innermost.unique {parent parent' : Option Nat} (innermost : Innermost entries index parent)
    (innermost' : Innermost entries index parent') : parent = parent' := by
  cases parent with
  | none =>
      cases parent' with
      | none => rfl
      | some scope' => exact absurd innermost'.1 (innermost scope')
  | some scope =>
      cases parent' with
      | none => exact absurd innermost.1 (innermost' scope)
      | some scope' => exact congrArg some (IsGreatest.unique innermost innermost')

/-- Open scopes in a list, the later ones first, have the innermost one at the front. -/
theorem innermost_head? {scopes : List Nat} (descending : scopes.Pairwise (· > ·))
    (members : ∀ scope, scope ∈ scopes ↔ OpenBefore entries scope index) :
    Innermost entries index scopes.head? := by
  cases scopes with
  | nil =>
      intro scope isOpen
      exact absurd ((members scope).mpr isOpen) List.not_mem_nil
  | cons first others =>
      refine ⟨(members first).mp List.mem_cons_self, ?_⟩
      intro scope isOpen
      rcases List.mem_cons.mp ((members scope).mpr isOpen) with rfl | member
      · exact Nat.le_refl _
      · exact Nat.le_of_lt (List.rel_of_pairwise_cons descending member)

/-- Every entry of the row stands in the innermost scope that is open before it. -/
structure Nested (entries : List Entry) : Prop where
  innermost : ∀ index entry, entries[index]? = some entry →
    Innermost entries index entry.parent
  plain : ∀ entry ∈ entries, entry.Plain

namespace Nested

variable (nested : Nested entries)
include nested

theorem openBefore_parent (found : entries[index]? = some entry)
    (parent : entry.parent = some scope) : OpenBefore entries scope index := by
  have innermost := nested.innermost index entry found
  rw [parent] at innermost
  exact innermost.1

theorem parent_lt (found : entries[index]? = some entry) (parent : entry.parent = some scope) :
    scope < index :=
  (nested.openBefore_parent found parent).earlier

theorem parent_lt_length (member : entry ∈ entries) (parent : entry.parent = some scope) :
    scope < entries.length := by
  obtain ⟨index, found⟩ := List.getElem?_of_mem member
  obtain ⟨inside, _⟩ := List.getElem?_eq_some_iff.mp found
  exact Nat.lt_trans (nested.parent_lt found parent) inside

theorem parent_eq_some_iff (found : entries[index]? = some entry) :
    entry.parent = some scope ↔ IsGreatest { scope | OpenBefore entries scope index } scope := by
  have innermost := nested.innermost index entry found
  constructor
  · intro parent
    rwa [parent] at innermost
  · intro greatest
    have isInnermost : Innermost entries index (some scope) := greatest
    exact innermost.unique isInnermost

theorem parent_eq_none_iff (found : entries[index]? = some entry) :
    entry.parent = none ↔ ∀ scope, ¬OpenBefore entries scope index := by
  have innermost := nested.innermost index entry found
  constructor
  · intro parent
    rwa [parent] at innermost
  · intro nothing
    have isInnermost : Innermost entries index none := nothing
    exact innermost.unique isInnermost

/-- An open scope was opened by an entry that is no null entry. -/
theorem exists_opening (isOpen : OpenBefore entries scope index) :
    ∃ opening, entries[scope]? = some opening ∧ opening.hasChildren = true ∧
      opening.isNull = false := by
  have announces := isOpen.announces
  cases opens : entries[scope]? with
  | none =>
      rw [opens] at announces
      cases announces
  | some opening =>
      rw [opens, Option.any_some] at announces
      refine ⟨opening, rfl, announces, ?_⟩
      by_contra isNull
      have flag := nested.plain opening (List.mem_of_getElem? opens) (by simpa using isNull)
      rw [announces] at flag
      cases flag

theorem openBefore_of_closes (closes : Closes entries index scope) :
    OpenBefore entries scope index := by
  obtain ⟨entry, found, _, parent⟩ := closes
  exact nested.openBefore_parent found parent

/-- Nothing stands in a scope behind the null entry that closes it. -/
theorem parent_ne_of_closes (closes : Closes entries index scope) (behind : index < later)
    (found : entries[later]? = some entry) : entry.parent ≠ some scope := by
  obtain ⟨closing, foundClosing, isNull, parent⟩ := closes
  intro stands
  have earlier : (entries.take later)[index]? = some closing := by
    rwa [List.getElem?_take_of_lt behind]
  exact (nested.openBefore_parent found stands).unclosed closing (List.mem_of_getElem? earlier)
    isNull parent

theorem closes_unique (closes : Closes entries index scope) (closes' : Closes entries later scope) :
    later = index := by
  have ⟨_, found, _, parent⟩ := closes
  have ⟨_, found', _, parent'⟩ := closes'
  rcases Nat.lt_trichotomy index later with before | same | behind
  · exact absurd parent' (nested.parent_ne_of_closes closes before found')
  · exact same.symm
  · exact absurd parent (nested.parent_ne_of_closes closes' behind found)

/-- A scope that is open before an entry is open before the parent too, unless it is the parent. -/
theorem openBefore_of_parent {parent : Nat} (found : entries[index]? = some entry)
    (stands : entry.parent = some parent) :
    OpenBefore entries scope index ↔ scope = parent ∨ OpenBefore entries scope parent := by
  have isParent := nested.openBefore_parent found stands
  have greatest := (nested.parent_eq_some_iff found).mp stands
  constructor
  · intro isOpen
    rcases Nat.lt_or_eq_of_le (greatest.2 isOpen) with outer | same
    · exact .inr (isOpen.of_le outer (Nat.le_of_lt isParent.earlier))
    · exact .inl same
  · rintro (rfl | isOpen)
    · exact isParent
    · refine ⟨Nat.lt_trans isOpen.earlier isParent.earlier, isOpen.announces, ?_⟩
      intro closing member isNull closes
      obtain ⟨place, before, rfl⟩ := List.mem_take_iff_getElem.mp member
      have foundClosing : entries[place]? = some entries[place] :=
        List.getElem?_eq_getElem (by omega)
      rcases Nat.lt_or_ge place parent with early | late
      · have earlyClosing : (entries.take parent)[place]? = some entries[place] := by
          rwa [List.getElem?_take_of_lt early]
        exact isOpen.unclosed _ (List.mem_of_getElem? earlyClosing) isNull closes
      · -- A null entry behind the parent cannot reach past it to a scope further out.
        rcases Nat.lt_or_eq_of_le late with behind | same
        · have inner := isParent.of_le behind (by omega)
          have outermost := ((nested.parent_eq_some_iff foundClosing).mp closes).2 inner
          have outer := isOpen.earlier
          omega
        · subst same
          obtain ⟨opening, opens, _, notNull⟩ := nested.exists_opening isParent
          rw [foundClosing] at opens
          cases opens
          rw [isNull] at notNull
          cases notNull

/-- What is open behind one more entry: the scopes open before it and the one it opens, without the
one it closes. -/
theorem openBefore_concat :
    OpenBefore (entries ++ [entry]) scope (entries.length + 1) ↔
      (OpenBefore entries scope entries.length ∨
          scope = entries.length ∧ entry.hasChildren = true) ∧
        (entry.isNull = true → entry.parent ≠ some scope) := by
  have whole : (entries ++ [entry]).take (entries.length + 1) = entries ++ [entry] :=
    List.take_of_length_le (by simp)
  constructor
  · rintro ⟨earlier, announces, unclosed⟩
    rw [whole] at unclosed
    refine ⟨?_, unclosed entry (by simp)⟩
    rcases Nat.lt_or_eq_of_le (Nat.le_of_lt_succ earlier) with before | same
    · rw [List.getElem?_append_left before] at announces
      refine .inl ⟨before, announces, ?_⟩
      rw [List.take_length]
      exact fun closing member => unclosed closing (List.mem_append_left _ member)
    · rw [same, List.getElem?_concat_length, Option.any_some] at announces
      exact .inr ⟨same, announces⟩
  · rintro ⟨isOpen | ⟨rfl, announces⟩, notClosed⟩
    · have unclosed := isOpen.unclosed
      rw [List.take_length] at unclosed
      refine ⟨Nat.lt_succ_of_lt isOpen.earlier, ?_, ?_⟩
      · rw [List.getElem?_append_left isOpen.earlier]
        exact isOpen.announces
      · rw [whole]
        exact List.forall_mem_append.mpr ⟨unclosed, List.forall_mem_singleton.mpr notClosed⟩
    · refine ⟨Nat.lt_succ_self _, ?_, ?_⟩
      · rw [List.getElem?_concat_length]
        exact announces
      · rw [whole]
        refine List.forall_mem_append.mpr ⟨?_, List.forall_mem_singleton.mpr notClosed⟩
        intro closing member _ closes
        exact Nat.lt_irrefl _ (nested.parent_lt_length member closes)

theorem concat (plain : entry.Plain) (innermost : Innermost entries entries.length entry.parent) :
    Nested (entries ++ [entry]) where
  innermost := by
    intro index found place
    obtain ⟨inside, _⟩ := List.getElem?_eq_some_iff.mp place
    rw [List.length_append, List.length_singleton] at inside
    rw [innermost_append (Nat.le_of_lt_succ inside)]
    rcases Nat.lt_or_eq_of_le (Nat.le_of_lt_succ inside) with before | same
    · rw [List.getElem?_append_left before] at place
      exact nested.innermost index found place
    · subst same
      rw [List.getElem?_concat_length] at place
      cases place
      exact innermost
  plain := List.forall_mem_append.mpr ⟨nested.plain, List.forall_mem_singleton.mpr plain⟩

end Nested

/-- The scopes that are open behind a row, the innermost first. -/
def openScopes (entries : List Entry) : List Nat :=
  ((List.range entries.length).filter (OpenBefore entries · entries.length)).reverse

theorem mem_openScopes : scope ∈ openScopes entries ↔ OpenBefore entries scope entries.length := by
  unfold openScopes
  rw [List.mem_reverse, List.mem_filter, List.mem_range, decide_eq_true_iff]
  exact ⟨And.right, fun isOpen => ⟨isOpen.earlier, isOpen⟩⟩

theorem openScopes_descending : (openScopes entries).Pairwise (· > ·) :=
  List.pairwise_reverse.mpr (List.pairwise_lt_range.filter _)

end Entry

namespace Nesting

open Entry (OpenBefore Nested Innermost)

/-- The entries stand in their scopes, and the scopes that are carried along are those still open,
the innermost first. -/
structure Tracks (nesting : Nesting) : Prop where
  nested : Nested nesting.entries.toList
  descending : nesting.scopes.Pairwise (· > ·)
  members : ∀ scope, scope ∈ nesting.scopes ↔
    OpenBefore nesting.entries.toList scope nesting.entries.toList.length

namespace Tracks

variable {nesting : Nesting} {entry : EntryBody}

protected theorem empty : Nesting.empty.Tracks where
  nested := ⟨fun _ _ found => (nomatch found), fun _ member => (nomatch member)⟩
  descending := .nil
  members := fun _ => ⟨fun member => (nomatch member), fun isOpen => (nomatch isOpen.earlier)⟩

theorem mem_tail_iff {scopes : List Nat} (descending : scopes.Pairwise (· > ·)) {scope : Nat} :
    scope ∈ scopes.tail ↔ scope ∈ scopes ∧ scopes.head? ≠ some scope := by
  cases scopes with
  | nil => simp
  | cons first others =>
      have outer : ∀ other ∈ others, first > other :=
        fun _ member => List.rel_of_pairwise_cons descending member
      rw [List.tail_cons, List.head?_cons, List.mem_cons, ne_eq, Option.some_inj]
      constructor
      · intro member
        exact ⟨.inr member, Nat.ne_of_gt (outer scope member)⟩
      · rintro ⟨rfl | member, different⟩
        · exact absurd rfl different
        · exact member

/-- One more entry finds its scope innermost, and leaves those open that are open behind it. -/
protected theorem add (tracks : nesting.Tracks) (plain : entry.Plain) :
    (nesting.add entry).Tracks := by
  obtain ⟨nested, descending, members⟩ := tracks
  have innermost := Entry.innermost_head? descending members
  have outer : ∀ scope ∈ nesting.scopes, scope < nesting.entries.toList.length :=
    fun scope member => ((members scope).mp member).earlier
  refine ⟨?_, ?_, ?_⟩
  · rw [entries_add]
    exact nested.concat plain innermost
  · rw [scopes_add]
    unfold scopesAfter
    split
    · exact descending.tail
    · split
      · exact List.pairwise_cons.mpr ⟨outer, descending⟩
      · exact descending
  · intro scope
    rw [scopes_add, entries_add, List.length_append, List.length_singleton,
      nested.openBefore_concat, ← members]
    unfold scopesAfter
    split
    · rename_i isNull
      rw [mem_tail_iff descending]
      simp [plain isNull, isNull]
    · rename_i notNull
      split
      · rename_i announces
        simp [notNull, announces, or_comm]
      · rename_i announces
        simp [notNull, announces]

protected theorem addAll {row : List EntryBody} (tracks : nesting.Tracks)
    (plain : ∀ entry ∈ row, entry.Plain) : (nesting.addAll row).Tracks := by
  induction row generalizing nesting with
  | nil => exact tracks
  | cons entry row induction =>
      rw [List.forall_mem_cons] at plain
      exact induction (tracks.add plain.1) plain.2

theorem scopes_eq (tracks : nesting.Tracks) :
    nesting.scopes = Entry.openScopes nesting.entries.toList :=
  tracks.descending.eq_of_mem_iff Entry.openScopes_descending fun scope => by
    rw [tracks.members, Entry.mem_openScopes]

end Tracks

end Nesting

namespace EntryTable

variable {abbreviations : AbbreviationTable} {context : AttributeContext} {cursor next : Cursor}
  {row : List EntryBody} {table : EntryTable}

theorem tracks_of_row
    (reads : (EntryBody.row abbreviations context).run cursor = .ok (row, next)) :
    (Nesting.empty.addAll row).Tracks :=
  .addAll .empty (EntryBody.forall_of_row EntryBody.plain_of_run reads)

/-- Whatever bytes entries are decoded from, each stands in the innermost scope open before it. -/
theorem nested_of_run
    (outcome : (decoder abbreviations context).run cursor = .ok (table, next)) :
    Entry.Nested table.entries := by
  obtain ⟨row, reads, rfl⟩ := row_of_run outcome
  exact (tracks_of_row reads).nested

end EntryTable

end Symbolication
