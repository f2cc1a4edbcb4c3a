import Mathlib.Data.Finset.Card
import RulesText.Gap.Numbering
import RulesText.Proofs.Distinct

/-!
# Numbers of words

A word keeps its number while others are added, so the numbers of the words of several texts are
those that the last numbering gives. Words that are in it can be read back from their numbers. From
the empty numbering on, the numbers count up from 1 in the order in which the words first appear.

## Main definitions

* `Numbering.number`: the number of a word.
* `Numbering.Assigns`: what the numbers of several words are.
* `Numbering.Keeps`: a later numbering says the same of the words of an earlier one.

## Main statements

* `Numbering.insertAll_assigns`: both hold of words that are numbered one after the other.
-/

namespace RulesText.Numbering

variable {n m : Numbering} {w v : Text} {id : Nat}

/-- The number of a word. Words that are not in the numbering share the next free one. -/
def number (n : Numbering) (w : Text) : Nat :=
  n.words.idxOf w + 1

theorem number_ne_zero : n.number w ≠ 0 :=
  Nat.succ_ne_zero _

theorem number_injective (h : w ∈ n.words) (eq : n.number w = n.number v) : w = v := by
  have same : n.words.idxOf w = n.words.idxOf v := Nat.succ.inj eq
  have lt := List.idxOf_lt_length_of_mem h
  have lt_v : n.words.idxOf v < n.words.length := same ▸ lt
  rw [← List.getElem_idxOf lt, ← List.getElem_idxOf lt_v]
  simp only [same]

theorem word_number (h : w ∈ n.words) : n.word (n.number w) = w := by
  have lt := List.idxOf_lt_length_of_mem h
  rw [number, word, List.getElem?_eq_getElem lt, List.getElem_idxOf, Option.getD_some]

theorem number_of_isPrefix (grows : n.words <+: m.words) (h : w ∈ n.words) :
    m.number w = n.number w := by
  obtain ⟨added, eq⟩ := grows
  rw [number, number, ← eq, List.idxOf_append, if_pos h]

/-! ## Adding words -/

theorem insert_of_mem (mem : w ∈ n.words) : n.insert w = (n.number w, n) := by
  rw [insert]
  cases known : n.words.idxOf? w with
  | none => exact absurd mem (List.idxOf?_eq_none_iff.1 known)
  | some place =>
    obtain ⟨-, eq⟩ := List.findIdx?_eq_some_iff_findIdx_eq.1 known
    exact congrArg (fun id => (id + 1, n)) eq.symm

/-- A new word gets the next free number. -/
theorem insert_of_notMem (notMem : w ∉ n.words) :
    n.insert w = (n.number w, { words := n.words ++ [w] }) := by
  rw [insert, List.idxOf?_eq_none_iff.2 notMem, number, List.idxOf_eq_length notMem]

theorem insertAll_cons (n : Numbering) (w : Text) (ws : List Text) :
    n.insertAll (w :: ws) =
      ((n.insert w).1 :: ((n.insert w).2.insertAll ws).1, ((n.insert w).2.insertAll ws).2) :=
  rfl

theorem insertTexts_cons (n : Numbering) (ws : List Text) (texts : List (List Text)) :
    n.insertTexts (ws :: texts) = ((n.insertAll ws).1 :: ((n.insertAll ws).2.insertTexts texts).1,
      ((n.insertAll ws).2.insertTexts texts).2) :=
  rfl

theorem insert_spec (n : Numbering) (w : Text) :
    n.words <+: (n.insert w).2.words ∧ w ∈ (n.insert w).2.words ∧
      (n.insert w).1 = (n.insert w).2.number w := by
  by_cases mem : w ∈ n.words
  · rw [insert_of_mem mem]
    exact ⟨List.prefix_rfl, mem, rfl⟩
  · rw [insert_of_notMem mem]
    refine ⟨List.prefix_append .., by simp, ?_⟩
    simp [number, List.idxOf_append, mem]

/-- Several words get the numbers that the numbering has in the end. -/
theorem insertAll_spec (n : Numbering) (ws : List Text) :
    n.words <+: (n.insertAll ws).2.words ∧ ws ⊆ (n.insertAll ws).2.words ∧
      (n.insertAll ws).1 = ws.map (n.insertAll ws).2.number := by
  induction ws generalizing n with
  | nil => exact ⟨List.prefix_rfl, List.nil_subset _, rfl⟩
  | cons w ws ih =>
    obtain ⟨grows, mem, id⟩ := n.insert_spec w
    obtain ⟨grows', sub, ids⟩ := ih (n.insert w).2
    rw [insertAll_cons]
    refine ⟨grows.trans grows', List.cons_subset.2 ⟨grows'.subset mem, sub⟩, ?_⟩
    rw [List.map_cons, ← ids, number_of_isPrefix grows' mem, id]

theorem insertTexts_spec (n : Numbering) (texts : List (List Text)) :
    n.words <+: (n.insertTexts texts).2.words ∧
      (∀ ws ∈ texts, ws ⊆ (n.insertTexts texts).2.words) ∧
      (n.insertTexts texts).1 = texts.map (·.map (n.insertTexts texts).2.number) := by
  induction texts generalizing n with
  | nil => exact ⟨List.prefix_rfl, by simp, rfl⟩
  | cons ws texts ih =>
    obtain ⟨grows, sub, ids⟩ := n.insertAll_spec ws
    obtain ⟨grows', subs, others⟩ := ih (n.insertAll ws).2
    simp only [insertTexts_cons]
    refine ⟨grows.trans grows',
      List.forall_mem_cons.2 ⟨List.Subset.trans sub grows'.subset, subs⟩, ?_⟩
    rw [List.map_cons, ← others, ids]
    congr 1
    exact List.map_congr_left fun w mem => (number_of_isPrefix grows' (sub mem)).symm

/-! ## The words of a numbering -/

theorem mem_insert : v ∈ (n.insert w).2.words ↔ v = w ∨ v ∈ n.words := by
  by_cases mem : w ∈ n.words
  · rw [insert_of_mem mem, or_iff_right_of_imp fun eq => eq ▸ mem]
  · rw [insert_of_notMem mem, List.mem_append, List.mem_singleton, or_comm]

/-- Every word has one number. -/
theorem nodup_insert (nodup : n.words.Nodup) (w : Text) : (n.insert w).2.words.Nodup := by
  by_cases mem : w ∈ n.words
  · rwa [insert_of_mem mem]
  · rw [insert_of_notMem mem]
    exact List.nodup_append.2 ⟨nodup, by simp, by grind⟩

theorem mem_insertAll (ws : List Text) :
    v ∈ (n.insertAll ws).2.words ↔ v ∈ ws ∨ v ∈ n.words := by
  induction ws generalizing n with
  | nil => simp [insertAll]
  | cons w ws ih =>
    rw [insertAll_cons, ih, mem_insert, List.mem_cons, or_left_comm, or_assoc]

theorem nodup_insertAll (nodup : n.words.Nodup) (ws : List Text) :
    (n.insertAll ws).2.words.Nodup := by
  induction ws generalizing n with
  | nil => exact nodup
  | cons w ws ih => exact ih (nodup_insert nodup w)

theorem mem_insertTexts (texts : List (List Text)) :
    v ∈ (n.insertTexts texts).2.words ↔ (∃ ws ∈ texts, v ∈ ws) ∨ v ∈ n.words := by
  induction texts generalizing n with
  | nil => simp [insertTexts]
  | cons ws texts ih =>
    simp only [insertTexts_cons, ih, mem_insertAll, List.mem_cons, exists_eq_or_imp, or_left_comm,
      or_assoc]

theorem nodup_insertTexts (nodup : n.words.Nodup) (texts : List (List Text)) :
    (n.insertTexts texts).2.words.Nodup := by
  induction texts generalizing n with
  | nil => exact nodup
  | cons ws texts ih => exact ih (nodup_insertAll nodup ws)

/-! ## The order of the numbers -/

/-- The words have been numbered one after the other, with the numbers `ids`, and `n` is the
numbering in the end. -/
structure Assigns (n : Numbering) (words : List Text) (ids : List Nat) : Prop where
  length : ids.length = words.length
  /-- Equal words have equal numbers, and no others have. -/
  eq_iff : ∀ i < words.length, ∀ j < words.length, ids[i]? = ids[j]? ↔ words[i]? = words[j]?
  /-- The numbers are 1, 2, 3, … in the order in which the words first appear. -/
  numbers : ids.eraseDups = List.range' 1 n.size
  distinct : n.words = words.eraseDups
  size : n.size = words.toFinset.card
  bounds : ∀ id ∈ ids, id ≠ 0 ∧ id ≤ n.size
  /-- Numbers of 32 bits do for fewer than `2 ^ 32 - 1` words. -/
  fits : n.size < UInt32.size - 1 → ∀ id ∈ ids, (UInt32.ofNat id).toNat = id
  word : ids.map n.word = words
  word_zero : n.word 0 = []
  word_beyond : ∀ id, n.size < id → n.word id = []

/-- What the numbering `n` says of its words and numbers, `m` says too. -/
structure Keeps (n m : Numbering) : Prop where
  size_le : n.size ≤ m.size
  insert : ∀ w ∈ n.words, m.insert w = ((n.insert w).1, m)
  word : ∀ id ≤ n.size, m.word id = n.word id

theorem insertAll_append (n : Numbering) (ws vs : List Text) :
    n.insertAll (ws ++ vs) = ((n.insertAll ws).1 ++ ((n.insertAll ws).2.insertAll vs).1,
      ((n.insertAll ws).2.insertAll vs).2) := by
  induction ws generalizing n with
  | nil => rfl
  | cons w ws ih => rw [List.cons_append, insertAll_cons, ih, insertAll_cons, List.cons_append]

/-- The words are those from before and the new ones, each where it first appears. -/
theorem words_insertAll (nodup : n.words.Nodup) (ws : List Text) :
    (n.insertAll ws).2.words = (n.words ++ ws).eraseDups := by
  induction ws generalizing n with
  | nil => rw [List.append_nil, eraseDups_of_nodup nodup]; rfl
  | cons w ws ih =>
    rw [insertAll_cons, ih (nodup_insert nodup w)]
    by_cases mem : w ∈ n.words
    · rw [insert_of_mem mem, eraseDups_append_cons_of_mem mem]
    · rw [insert_of_notMem mem, List.append_assoc, List.singleton_append]

theorem number_le_size (mem : w ∈ n.words) : n.number w ≤ n.size :=
  List.idxOf_lt_length_of_mem mem

theorem word_beyond (beyond : n.size < id) : n.word id = [] := by
  cases id with
  | zero => rfl
  | succ id => rw [word, List.getElem?_eq_none (Nat.le_of_lt_succ beyond), Option.getD_none]

/-- The numbers of all words, in order. -/
theorem map_number (nodup : n.words.Nodup) : n.words.map n.number = List.range' 1 n.size := by
  refine List.ext_getElem (by simp [size]) fun i inside _ => ?_
  rw [List.length_map] at inside
  rw [List.getElem_map, List.getElem_range', number, nodup.idxOf_getElem i inside, Nat.one_mul,
    Nat.add_comm]

theorem Keeps.of_isPrefix (grows : n.words <+: m.words) : n.Keeps m where
  size_le := grows.length_le
  insert w mem := by
    rw [insert_of_mem mem, insert_of_mem (grows.subset mem), number_of_isPrefix grows mem]
  word id le := by
    obtain ⟨added, eq⟩ := grows
    cases id with
    | zero => rfl
    | succ id => rw [Numbering.word, Numbering.word, ← eq, List.getElem?_append_left le]

/-- A numbering whose words are those of a list assigns them their numbers. -/
theorem assigns_map_number {words : List Text} (nodup : n.words.Nodup)
    (distinct : n.words = words.eraseDups) : n.Assigns words (words.map n.number) := by
  have mem {w : Text} : w ∈ n.words ↔ w ∈ words := by rw [distinct, List.mem_eraseDups]
  have inj : ∀ w ∈ words, ∀ v ∈ words, n.number w = n.number v → w = v :=
    fun w here v _ => number_injective (mem.2 here)
  constructor
  case length => rw [List.length_map]
  case eq_iff =>
    intro i hi j hj
    rw [List.getElem?_map, List.getElem?_map, List.getElem?_eq_getElem hi,
      List.getElem?_eq_getElem hj]
    simp only [Option.map_some, Option.some.injEq]
    exact ⟨inj _ (List.getElem_mem hi) _ (List.getElem_mem hj), congrArg _⟩
  case numbers => rw [eraseDups_map inj, ← distinct, map_number nodup]
  case distinct => exact distinct
  case size =>
    rw [size, ← List.toFinset_card_of_nodup nodup]
    congr 1
    ext w
    rw [List.mem_toFinset, List.mem_toFinset, mem]
  case bounds =>
    intro id numbered
    obtain ⟨w, here, rfl⟩ := List.mem_map.1 numbered
    exact ⟨number_ne_zero, number_le_size (mem.2 here)⟩
  case fits =>
    intro few id numbered
    obtain ⟨w, here, rfl⟩ := List.mem_map.1 numbered
    have le := number_le_size (mem.2 here)
    exact UInt32.toNat_ofNat_of_lt' (le.trans_lt (few.trans (by decide)))
  case word =>
    rw [List.map_map]
    exact (List.map_congr_left fun w here => word_number (mem.2 here)).trans (List.map_id words)
  case word_zero => rfl
  case word_beyond => exact fun id => word_beyond

/-- Words that are numbered one after the other get the numbers 1, 2, 3, … in the order in which
they first appear, and they keep them when further words are numbered. -/
theorem insertAll_assigns (words later : List Text) :
    (({} : Numbering).insertAll words).2.Assigns words (({} : Numbering).insertAll words).1 ∧
    (({} : Numbering).insertAll words).1 <+: (({} : Numbering).insertAll (words ++ later)).1 ∧
    (({} : Numbering).insertAll words).2.Keeps (({} : Numbering).insertAll (words ++ later)).2 := by
  have nodup := nodup_insertAll (n := {}) List.nodup_nil words
  have distinct := words_insertAll (n := {}) List.nodup_nil words
  have grows := ((({} : Numbering).insertAll words).2.insertAll_spec later).1
  rw [insertAll_append]
  refine ⟨?_, List.prefix_append .., .of_isPrefix grows⟩
  rw [(({} : Numbering).insertAll_spec words).2.2]
  exact assigns_map_number nodup distinct

example : (({} : Numbering).insertAll ["draw", "a", "draw", "card"]).1 = [1, 2, 1, 3] := by decide

end RulesText.Numbering
