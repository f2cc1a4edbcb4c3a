import RulesText.Card.Name
import RulesText.Proofs.Tally
import RulesText.Proofs.Text.Lowercase
import RulesText.Proofs.Text.Slices

/-!
# The names of a card

A name by which a card refers to itself is a piece of its full name in lower case: it is not
empty, has no blanks at its ends and is its own lower case. Longer names come first.

## Main definitions

* `Card.IsName`: what is common to all names.

## Main statements

* `Card.isName_of_mem`: the names of a card are names.
* `Card.pairwise_names`: the order of the names.
-/

namespace RulesText.Card

open Text (byteSize)

variable {name full n a b : Text}

/-! ## Pieces of the full name -/

theorem exists_of_mem_halves (mem : n ∈ halves full) : ∃ piece : Text,
    piece.Sublist full ∧ n = Text.trim piece := by
  unfold halves at mem
  split at mem
  · cases mem
  · obtain ⟨piece, inside, rfl⟩ := List.mem_map.1 mem
    exact ⟨piece, Text.sublist_of_mem_splitOnAtMost inside, rfl⟩

theorem exists_of_shortName? (short : shortName? full = some n) : ∃ piece : Text,
    piece.Sublist full ∧ n = Text.trim piece := by
  obtain ⟨⟨front, back⟩, found, rfl⟩ := Option.map_eq_some_iff.1 short
  refine ⟨front, ?_, rfl⟩
  rw [Text.eq_of_cut? found, List.append_assoc]
  exact List.sublist_append_left _ _

/-- The full name of a card in lower case. -/
def fullName (name : Text) : Text :=
  Text.lowercase (Text.trim name)

theorem mem_names_iff : n ∈ names name ↔ n ≠ [] ∧
    (n = fullName name ∨ n ∈ halves (fullName name) ∨ shortName? (fullName name) = some n) := by
  rw [names, mem_eraseReps, List.mem_mergeSort, List.mem_filter, List.mem_append, List.mem_cons,
    Option.mem_toList, ← fullName, or_assoc, and_comm]
  simp

/-- What is common to all names by which cards refer to themselves. -/
structure IsName (n : Text) : Prop where
  ne : n ≠ []
  trimmed : n.IsTrimmed
  lowered : ∀ c ∈ n, Text.isLowered c

/-- The full name is a name, and so are pieces of it without the blanks at their ends. -/
theorem eq_or_exists_of_mem_names (mem : n ∈ names name) : n = fullName name ∨
    ∃ piece : Text, piece.Sublist (fullName name) ∧ n = Text.trim piece := by
  obtain ⟨-, full | half | short⟩ := mem_names_iff.1 mem
  · exact .inl full
  · exact .inr (exists_of_mem_halves half)
  · exact .inr (exists_of_shortName? short)

theorem sublist_of_mem_names (mem : n ∈ names name) : n.Sublist (fullName name) := by
  rcases eq_or_exists_of_mem_names mem with rfl | ⟨piece, inside, rfl⟩
  · exact .refl _
  · exact (Text.trim_sublist piece).trans inside

theorem isName_of_mem (mem : n ∈ names name) : IsName n where
  ne := (mem_names_iff.1 mem).1
  trimmed := by
    rcases eq_or_exists_of_mem_names mem with rfl | ⟨piece, -, rfl⟩
    · exact (Text.isTrimmed_trim name).lowercase
    · exact Text.isTrimmed_trim piece
  lowered := fun _ inside =>
    Text.isLowered_of_mem_lowercase ((sublist_of_mem_names mem).subset inside)

/-- A card whose name has no tilde has none in any of its names. -/
theorem notMem_of_mem_names (none : '~' ∉ name) (mem : n ∈ names name) : '~' ∉ n :=
  fun inside => none ((Text.trim_sublist name).subset
    (Text.mem_of_mem_lowercase rfl ((sublist_of_mem_names mem).subset inside)))

/-! ## The order of the names -/

instance : Std.TransCmp nameOrder :=
  have : Std.TransCmp fun a b : Text => Ord.compare (byteSize b) (byteSize a) :=
    @Std.TransCmp.opposite _ (compareOn byteSize) inferInstance
  inferInstanceAs (Std.TransCmp (compareLex _ Text.compare))

/-- No name comes before a longer one. -/
theorem pairwise_names (name : Text) :
    (names name).Pairwise fun a b => byteSize b ≤ byteSize a := by
  refine pairwise_eraseReps (fun _ _ _ ab bc => Nat.le_trans bc ab) ?_
  refine (Sorting.pairwise_isLE nameOrder _).imp fun {a b} le => .inl ?_
  rw [nameOrder, Ordering.isLE_then_iff_or, Nat.compare_eq_lt, Nat.compare_eq_eq] at le
  omega

/-- The first name that fits is no shorter than others that do. -/
theorem byteSize_le_of_find? {p : Text → Bool} (found : (names name).find? p = some a)
    (mem : b ∈ names name) (fits : p b) : byteSize b ≤ byteSize a := by
  obtain ⟨-, front, back, eq, none⟩ := List.find?_eq_some_iff_append.1 found
  have order := pairwise_names name
  rw [eq] at mem order
  rcases List.mem_append.1 mem with before | behind
  · simpa [fits] using none b before
  · rcases List.mem_cons.1 behind with rfl | behind
    · exact Nat.le_refl _
    · exact (List.pairwise_cons.1 (List.pairwise_append.1 order).2.1).1 b behind

end RulesText.Card
