import Symbolication.Proofs.Entry.Forest
import Symbolication.Proofs.Entry.Scopes

/-!
Rows of entries as any bytes decode to them, well nested or not. The parent of an entry is the last
scope open before it, offsets increase, and the way outwards from an entry ends after it has passed
all scopes that are open before the entry, and nothing else.
-/

namespace Symbolication

namespace Entry

/-- The way outwards from a scope: it goes on from each entry that it visits to the parent of the
entry, and ends where there is none. -/
inductive Climbs (entries : List Entry) : Option Nat → List Nat → Prop
  | finished : Climbs entries none []
  | outside {index : Nat} : entries[index]? = none → Climbs entries (some index) []
  | visit {index : Nat} {entry : Entry} {visited : List Nat} :
      entries[index]? = some entry → Climbs entries entry.parent visited →
        Climbs entries (some index) (index :: visited)

variable {entries : List Entry} {entry : Entry} {index : Nat}

/-- The way outwards ends, since every parent stands before its children. -/
theorem Nested.exists_climbs (nested : Nested entries) (found : entries[index]? = some entry) :
    ∃ visited, Climbs entries entry.parent visited ∧ visited.Pairwise (· > ·) ∧
      ∀ scope, scope ∈ visited ↔ OpenBefore entries scope index := by
  induction index using Nat.strongRecOn generalizing entry with
  | ind index induction =>
      cases parent : entry.parent with
      | none =>
          have nothing := (nested.parent_eq_none_iff found).mp parent
          exact ⟨[], .finished, .nil, fun scope =>
            ⟨fun member => (nomatch member), fun isOpen => absurd isOpen (nothing scope)⟩⟩
      | some scope =>
          obtain ⟨opening, opens, _, _⟩ :=
            nested.exists_opening (nested.openBefore_parent found parent)
          obtain ⟨visited, climbs, descending, members⟩ :=
            induction scope (nested.parent_lt found parent) opens
          refine ⟨scope :: visited, .visit opens climbs, ?_, ?_⟩
          · exact List.pairwise_cons.mpr
              ⟨fun outer member => ((members outer).mp member).earlier, descending⟩
          · intro outer
            rw [List.mem_cons, members, nested.openBefore_of_parent found parent]

end Entry

namespace CompileUnit

open Entry (Climbs Closes Nested OpenBefore)

variable {unit : CompileUnit} {index : Nat}

/-- The ancestors of an entry are what is visited on the way outwards from it. -/
theorem ancestors_of_climbs (nested : Nested unit.entries) {visited : List Nat}
    (climbs : Climbs unit.entries ((unit.entries[index]?).bind (·.parent)) visited) :
    visited.map (unit.entries[·]?) = (unit.ancestors index).map some := by
  induction index using Nat.strongRecOn generalizing visited with
  | ind index induction =>
      rw [ancestors]
      generalize start : (unit.entries[index]?).bind (·.parent) = parent? at climbs ⊢
      cases climbs with
      | finished => rfl
      | @outside parent missing =>
          dsimp only
          rw [missing]
          split <;> rfl
      | @visit parent entry visited found climbs =>
          obtain ⟨child, isChild, stands⟩ := Option.bind_eq_some_iff.mp start
          have before := nested.parent_lt isChild stands
          have others := induction parent before (by rwa [found, Option.bind_some])
          dsimp only
          rw [if_pos before, found]
          simp only [List.map_cons, found, others]

/-- The way outwards from an entry, and what it passes. -/
theorem exists_walk (nested : Nested unit.entries) (index : Nat) :
    ∃ visited, Climbs unit.entries ((unit.entries[index]?).bind (·.parent)) visited ∧
      visited.Pairwise (· > ·) ∧
      visited.map (unit.entries[·]?) = (unit.ancestors index).map some ∧
      ∀ entry, unit.entries[index]? = some entry →
        ∀ scope, scope ∈ visited ↔ OpenBefore unit.entries scope index := by
  cases found : unit.entries[index]? with
  | none =>
      have climbs : Climbs unit.entries ((unit.entries[index]?).bind (·.parent)) [] := by
        rw [found]
        exact .finished
      exact ⟨[], .finished, .nil, ancestors_of_climbs nested climbs, fun _ found => (nomatch found)⟩
  | some entry =>
      obtain ⟨visited, climbs, descending, members⟩ := nested.exists_climbs found
      have climbs' : Climbs unit.entries ((unit.entries[index]?).bind (·.parent)) visited := by
        rwa [found]
      exact ⟨visited, climbs, descending, ancestors_of_climbs nested climbs', fun _ _ => members⟩

theorem mem_ancestors_of_openBefore (nested : Nested unit.entries) {entry : Entry} {scope : Nat}
    (found : unit.entries[index]? = some entry) (isOpen : OpenBefore unit.entries scope index) :
    ∃ opening, unit.entries[scope]? = some opening ∧ opening ∈ unit.ancestors index := by
  obtain ⟨visited, _, _, passes, members⟩ := exists_walk nested index
  have visits : unit.entries[scope]? ∈ visited.map (unit.entries[·]?) :=
    List.mem_map_of_mem ((members entry found scope).mpr isOpen)
  rw [passes] at visits
  obtain ⟨opening, member, same⟩ := List.mem_map.mp visits
  exact ⟨opening, same.symm, member⟩

/-- The rows that entries decode to, whatever the bytes are. The first entry begins at offset zero
and offsets increase, so that an offset leads to the one entry that begins there. The parent of an
entry, null or not, is the last scope that is open before it, and there is none only where none is
open; it stands before the entry, announces children and is no null entry. A null entry that closes
a scope is the only one to close it, nothing behind it stands in that scope, and all between the two
has the scope among its ancestors. The way outwards from any entry ends: it visits ever smaller
indices, those of the ancestors, and they are the scopes open before the entry. -/
theorem entries_stand_in_scopes {abbreviations : AbbreviationTable} {context : AttributeContext}
    {cursor next : Cursor} {unit : CompileUnit}
    (decoded : (EntryTable.decoder abbreviations context).run cursor =
      .ok (unit.toEntryTable, next)) :
    (∀ entry, unit.entries[0]? = some entry → entry.offset = 0) ∧
    unit.entries.Pairwise (fun earlier later => earlier.offset < later.offset) ∧
    (∀ offset index, unit.indexAt? offset = some index ↔
      ∃ entry, unit.entries[index]? = some entry ∧ entry.offset = offset) ∧
    (∀ index entry, unit.entries[index]? = some entry →
      (∀ scope, entry.parent = some scope ↔
        IsGreatest { scope | OpenBefore unit.entries scope index } scope) ∧
      (entry.parent = none ↔ ∀ scope, ¬OpenBefore unit.entries scope index) ∧
      ∀ scope, entry.parent = some scope → scope < index ∧
        ∃ opening, unit.entries[scope]? = some opening ∧ opening.hasChildren = true ∧
          opening.isNull = false) ∧
    (∀ index scope, Closes unit.entries index scope →
      (∀ other, Closes unit.entries other scope → other = index) ∧
      (∀ later entry, index < later → unit.entries[later]? = some entry →
        entry.parent ≠ some scope) ∧
      ∀ between, scope < between → between < index →
        ∃ opening, unit.entries[scope]? = some opening ∧ opening ∈ unit.ancestors between) ∧
    ∀ index, ∃ visited,
      Climbs unit.entries ((unit.entries[index]?).bind (·.parent)) visited ∧
      visited.Pairwise (· > ·) ∧
      visited.map (unit.entries[·]?) = (unit.ancestors index).map some ∧
      ∀ entry, unit.entries[index]? = some entry →
        ∀ scope, scope ∈ visited ↔ OpenBefore unit.entries scope index := by
  have nested := EntryTable.nested_of_run decoded
  have tiles := EntryTable.tiles_of_run decoded
  refine ⟨?_, EntryTable.increasing_of_run decoded,
    fun _ _ => EntryTable.indexAt?_of_run decoded, ?_, ?_, ?_⟩
  · intro entry first
    exact tiles.offset_of_first (by rw [List.head?_map, List.head?_eq_getElem?, first]; rfl)
  · intro index entry found
    refine ⟨fun _ => nested.parent_eq_some_iff found, nested.parent_eq_none_iff found, ?_⟩
    intro scope parent
    exact ⟨nested.parent_lt found parent,
      nested.exists_opening (nested.openBefore_parent found parent)⟩
  · intro index scope closes
    refine ⟨fun _ => nested.closes_unique closes,
      fun _ _ => nested.parent_ne_of_closes closes, ?_⟩
    intro between behind before
    have isOpen := (nested.openBefore_of_closes closes).of_le behind (Nat.le_of_lt before)
    have ⟨_, found, _, _⟩ := closes
    have inside := (List.getElem?_eq_some_iff.mp found).1
    exact mem_ancestors_of_openBefore nested (List.getElem?_eq_getElem (by omega)) isOpen
  · exact exists_walk nested

def raggedScope : Abbreviation :=
  { code := 1, tag := .moduleNamespace, hasChildren := true, attributes := [] }

def raggedLeaf : Abbreviation :=
  { code := 2, tag := .subprogram, hasChildren := false, attributes := [] }

/-- A unit whose null entries do not match its scopes: the first and the fifth entry close nothing,
and two scopes are never closed. -/
def raggedUnit : CompileUnit where
  header := {
    offset := 0, unitLength := 16, version := .four, abbreviationOffset := 0
    addressWidth := .eight }
  data := [0, 1, 2, 0, 0, 1, 2, 1, 2]
  abbreviations := { declarations := [raggedScope, raggedLeaf] }
  toEntryTable := .ofEntries [
    { EntryBody.null 0 with parent := none },
    raggedScope.entry [] 1 none, raggedLeaf.entry [] 2 (some 1), .closing 3 1,
    { EntryBody.null 4 with parent := none },
    raggedScope.entry [] 5 none, raggedLeaf.entry [] 6 (some 5), raggedScope.entry [] 7 (some 5),
    raggedLeaf.entry [] 8 (some 7)]
  lineTable := none

theorem entries_stand_in_scopes_ragged :
    (EntryTable.decoder raggedUnit.abbreviations EntryForest.sampleContext).run
        (.ofSection .info raggedUnit.data) =
      .ok (raggedUnit.toEntryTable,
        (Cursor.ofSection .info raggedUnit.data).after raggedUnit.data []) ∧
    IsGreatest { scope | OpenBefore raggedUnit.entries scope 8 } 7 ∧
    (∀ scope, ¬OpenBefore raggedUnit.entries scope 4) ∧
    (∀ other, Closes raggedUnit.entries other 1 → other = 3) ∧
    ∃ visited, Climbs raggedUnit.entries (some 7) visited ∧
      ∀ scope, scope ∈ visited ↔ OpenBefore raggedUnit.entries scope 8 := by
  have decoded : (EntryTable.decoder raggedUnit.abbreviations EntryForest.sampleContext).run
      (.ofSection .info raggedUnit.data) = .ok (raggedUnit.toEntryTable,
        (Cursor.ofSection .info raggedUnit.data).after raggedUnit.data []) := by
    decide +kernel
  obtain ⟨_, _, _, parents, closings, walks⟩ := entries_stand_in_scopes decoded
  obtain ⟨visited, climbs, _, _, members⟩ := walks 8
  exact ⟨decoded, ((parents 8 _ rfl).1 7).mp rfl, (parents 4 _ rfl).2.1.mp rfl,
    (closings 3 1 ⟨_, rfl, rfl, rfl⟩).1, visited, climbs, members _ rfl⟩

example : raggedUnit.ancestors 8 =
    [raggedScope.entry [] 7 (some 5), raggedScope.entry [] 5 none] := by
  decide +kernel

end CompileUnit

end Symbolication
