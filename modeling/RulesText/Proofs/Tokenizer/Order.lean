import RulesText.Proofs.Distinct
import RulesText.Proofs.LexiconEntry
import RulesText.Proofs.Regex.Search
import RulesText.Proofs.Sorting

/-!
# The order in which phrases are tried

The kinds of a priority list come first, each where the list names it first, and then all other
kinds of the lexicon: longer patterns before shorter ones, and patterns of one length as they are
declared. So every kind is tried, and none twice. A priority list that names a kind without a
phrase is refused.

## Main definitions

* `Tokenizer.IsOrderOf`: the order that a priority list asks for.

## Main statements

* `Tokenizer.new_isOrderOf`: a tokenizer has that order, or there is none for a stated reason.
-/

namespace RulesText.Tokenizer

variable {v : Vocabulary} {l : Lexicon} {priority : List Kind} {done : List LexiconEntry}

/-- The entries of the lexicon in the order that the priority list asks for. -/
structure IsOrderOf (l : Lexicon) (priority : List Kind) (order : List LexiconEntry) : Prop where
  /-- No entry is lost and none is repeated. -/
  perm : order.Perm l.entries
  /-- The listed kinds come first, each of them once. Among the others, a longer pattern comes
  before a shorter one, and of two patterns of one length the one that is declared first. -/
  parts : ∃ first rest, order = first ++ rest ∧ first.map (·.kind) = priority.eraseDups ∧
    rest.Pairwise fun a b => b.pattern.size < a.pattern.size ∨
      a.pattern.size = b.pattern.size ∧ [a, b].Sublist l.entries

/-! ## Prioritized entries -/

/-- If all listed kinds have entries, these are found, in the order of the list and each once. -/
theorem exists_prioritized_eq (done : List LexiconEntry) (nodup : (done.map (·.kind)).Nodup)
    (found : ∀ kind ∈ priority, (l.find? kind).isSome) :
    ∃ first, prioritized l done priority = .ok first ∧ (first.map (·.kind)).Nodup ∧
      first.map (·.kind) = (done.map (·.kind) ++ priority).eraseDups := by
  induction priority generalizing done with
  | nil => exact ⟨done, rfl, nodup, by rw [List.append_nil, eraseDups_of_nodup nodup]⟩
  | cons kind priority ih =>
    obtain ⟨e, entry⟩ := Option.isSome_iff_exists.1 (found kind List.mem_cons_self)
    have ih := fun done nodup => ih done nodup (List.forall_mem_cons.1 found).2
    obtain rfl : e.kind = kind := by simpa using List.find?_some entry
    have seen : done.any (·.kind == e.kind) = true ↔ e.kind ∈ done.map (·.kind) := by
      simp [List.any_eq_true]
    rw [prioritized, entry]
    dsimp only
    by_cases known : e.kind ∈ done.map (·.kind)
    · rw [if_pos (seen.2 known)]
      obtain ⟨first, ok, distinct, kinds⟩ := ih done nodup
      exact ⟨first, ok, distinct, by rw [kinds, eraseDups_append_cons_of_mem known]⟩
    · rw [if_neg (mt seen.1 known)]
      have nodup' : ((done ++ [e]).map (·.kind)).Nodup := by
        rw [List.map_append]
        refine List.nodup_append.2 ⟨nodup, List.nodup_singleton _, ?_⟩
        intro a mem b single eq
        obtain rfl := List.mem_singleton.1 single
        exact known ((show a = e.kind from eq) ▸ mem)
      obtain ⟨first, ok, distinct, kinds⟩ := ih _ nodup'
      exact ⟨first, ok, distinct, by rw [kinds, List.map_append, List.append_assoc]; rfl⟩

/-- The first listed kind without an entry is the fault. -/
theorem prioritized_eq_error {p : Kind → Bool} {kind : Kind}
    (absent : ∀ k, p k = true ↔ l.find? k = none) (missing : priority.find? p = some kind) :
    prioritized l done priority = .error (.undeclaredKind kind) := by
  induction priority generalizing done with
  | nil => cases missing
  | cons k priority ih =>
    rw [prioritized]
    by_cases here : l.find? k = none
    · rw [List.find?_cons_of_pos ((absent k).2 here)] at missing
      rw [here, Option.some.inj missing]
    · obtain ⟨e, entry⟩ := Option.ne_none_iff_exists'.1 here
      rw [List.find?_cons_of_neg (mt (absent k).1 here)] at missing
      rw [entry]
      exact ih missing

/-! ## All entries -/

theorem longestFirst_perm (entries : List LexiconEntry) : (longestFirst entries).Perm entries :=
  List.mergeSort_perm entries _

/-- Sorting keeps the declaration order of patterns that are as long. -/
theorem pairwise_longestFirst {entries : List LexiconEntry} (inside : entries.Sublist l.entries) :
    (longestFirst entries).Pairwise fun a b => b.pattern.size < a.pattern.size ∨
      a.pattern.size = b.pattern.size ∧ [a, b].Sublist l.entries := by
  have declared : entries.Pairwise fun a b => [a, b].Sublist l.entries :=
    List.pairwise_iff_forall_sublist.2 fun sub => sub.trans inside
  refine (Sorting.pairwise_of_ties ?_ ?_ declared).imp ?_
  · intro a b c
    simp only [decide_eq_true_eq]
    omega
  · intro a b
    simp only [Bool.or_eq_true, decide_eq_true_eq]
    omega
  · intro a b ⟨le, ties⟩
    simp only [decide_eq_true_eq] at le ties
    by_cases lt : b.pattern.size < a.pattern.size
    · exact .inl lt
    · exact .inr ⟨by omega, ties (by omega)⟩

/-- Entries of different kinds that are first together with all entries of other kinds are all
entries. -/
theorem perm_entries {first : List LexiconEntry} (distinct : (l.entries.map (·.kind)).Nodup)
    (nodup : (first.map (·.kind)).Nodup) (inside : ∀ e ∈ first, e ∈ l.entries) :
    (first ++ longestFirst (l.entries.filter fun e => !first.any (·.kind == e.kind))).Perm
      l.entries := by
  have own : first.Perm (l.entries.filter fun e => first.any (·.kind == e.kind)) := by
    refine (List.perm_ext_iff_of_nodup nodup.of_map (distinct.of_map.filter _)).2 fun e => ?_
    simp only [List.mem_filter, List.any_eq_true, beq_iff_eq]
    constructor
    · intro mem
      exact ⟨inside e mem, e, mem, rfl⟩
    · rintro ⟨mem, other, early, same⟩
      rwa [← List.inj_on_of_nodup_map distinct (inside other early) mem same]
  exact (own.append (longestFirst_perm _)).trans (List.filter_append_perm _ _)

theorem new_of_prioritized {first : List LexiconEntry}
    (ok : prioritized l [] priority = .ok first) : Tokenizer.new l priority =
      if Regex.fitTogether (l.entries.map (·.regex)) patternsLimit then
        .ok ⟨l, first ++ longestFirst (l.entries.filter fun e => !first.any (·.kind == e.kind))⟩
      else .error .patternsTooLarge := by
  rw [Tokenizer.new, ok]
  cases Regex.fitTogether (l.entries.map (·.regex)) patternsLimit <;> rfl

theorem isSome_find?_iff (h : Lexicon.build v = .ok l) (kind : Kind) :
    (l.find? kind).isSome ↔ kind ∈ v.map (·.kind) := by
  rw [Lexicon.find?, List.find?_isSome, ← Lexicon.map_kind_of_build h]
  simp only [beq_iff_eq, List.mem_map]

/-- The first listed kind that is not declared is refused. -/
theorem new_eq_undeclaredKind (h : Lexicon.build v = .ok l) {kind : Kind}
    (missing : priority.find? (· ∉ v.map (·.kind)) = some kind) :
    Tokenizer.new l priority = .error (.undeclaredKind kind) := by
  have absent : ∀ k, decide (k ∉ v.map (·.kind)) = true ↔ l.find? k = none := by
    intro k
    rw [decide_eq_true_eq, ← isSome_find?_iff h, Option.not_isSome_iff_eq_none]
  rw [Tokenizer.new, prioritized_eq_error absent missing]
  rfl

/-- Declared kinds are not refused, and all entries are put into order. -/
theorem exists_isOrderOf (h : Lexicon.build v = .ok l)
    (declared : ∀ kind ∈ priority, kind ∈ v.map (·.kind)) : ∃ order, IsOrderOf l priority order ∧
      Tokenizer.new l priority =
        if Regex.fitTogether (l.entries.map (·.regex)) patternsLimit then .ok ⟨l, order⟩
        else .error .patternsTooLarge := by
  obtain ⟨first, ok, nodup, starts⟩ := exists_prioritized_eq [] List.nodup_nil
    fun kind mem => (isSome_find?_iff h kind).2 (declared kind mem)
  have perm := perm_entries (Lexicon.nodup_of_build h) nodup (mem_of_prioritized ok (by simp))
  exact ⟨_, ⟨perm, first, _, rfl, starts, pairwise_longestFirst List.filter_sublist⟩,
    new_of_prioritized ok⟩

/-- A tokenizer is refused for the first listed kind that is not declared. If all listed kinds are
declared, the tokenizer tries all phrases in the order that the list asks for; there is none only
if the patterns are too large together. -/
theorem new_isOrderOf (h : Lexicon.build v = .ok l) (priority : List Kind) :
    (∀ kind, Tokenizer.new l priority = .error (.undeclaredKind kind) ↔
      priority.find? (· ∉ v.map (·.kind)) = some kind) ∧
    ((∀ kind ∈ priority, kind ∈ v.map (·.kind)) → ∃ order, IsOrderOf l priority order ∧
      (order.map (·.kind)).Perm (v.map (·.kind)) ∧
      Tokenizer.new l priority =
        if Regex.fitTogether (l.entries.map (·.regex)) patternsLimit then .ok ⟨l, order⟩
        else .error .patternsTooLarge) := by
  refine ⟨fun kind => ⟨fun refused => ?_, new_eq_undeclaredKind h⟩, fun declared => ?_⟩
  · cases missing : priority.find? (· ∉ v.map (·.kind)) with
    | some first =>
      obtain ⟨⟩ := (new_eq_undeclaredKind h missing).symm.trans refused
      rfl
    | none =>
      have declared : ∀ kind ∈ priority, kind ∈ v.map (·.kind) := by
        intro kind mem
        simpa using List.find?_eq_none.1 missing kind mem
      obtain ⟨order, -, eq⟩ := exists_isOrderOf h declared
      rw [eq] at refused
      split at refused <;> cases refused
  · obtain ⟨order, isOrder, eq⟩ := exists_isOrderOf h declared
    exact ⟨order, isOrder, Lexicon.map_kind_of_build h ▸ isOrder.perm.map _, eq⟩

/-- Four phrases, two of them with patterns of one length. -/
def turns : Vocabulary :=
  [{ kind := .timing, template := "when" }, { kind := .keyword, template := "upon" },
   { kind := .shuffle, template := "then" }, { kind := .drawCards, template := "draw two" }]

theorem isOrderOf_turns : ∃ l order, Lexicon.build turns = .ok l ∧
    Tokenizer.new l [.shuffle, .equip, .event] = .error (.undeclaredKind .equip) ∧
    Tokenizer.new l [.shuffle, .shuffle] = .ok ⟨l, order⟩ ∧ IsOrderOf l [.shuffle, .shuffle] order ∧
    order.map (·.kind) = [.shuffle, .drawCards, .timing, .keyword] := by
  have found : (Lexicon.build turns).toOption.map (fun l =>
      (l.entries.map fun e => (e.kind, e.pattern.size),
        Regex.fitTogether (l.entries.map (·.regex)) patternsLimit)) =
      some ([(.timing, 8), (.keyword, 8), (.shuffle, 8), (.drawCards, 12)], true) := by
    decide +kernel
  obtain ⟨⟨entries⟩, built, found⟩ := Option.map_eq_some_iff.1 found
  have built := Regex.Searcher.toOption_eq_some_iff.1 built
  obtain ⟨sizes, fit⟩ := Prod.mk.inj found
  obtain ⟨order, isOrder, -, eq⟩ := (new_isOrderOf built [.shuffle, .shuffle]).2 (by decide)
  rw [if_pos fit] at eq
  refine ⟨_, order, built, ((new_isOrderOf built _).1 .equip).2 (by decide), eq, isOrder, ?_⟩
  simp only [List.map_eq_cons_iff, List.map_eq_nil_iff, Prod.mk.injEq] at sizes
  obtain ⟨a, _, rfl, ⟨_, _⟩, b, _, rfl, ⟨_, _⟩, c, _, rfl, ⟨_, _⟩, d, _, rfl, ⟨_, _⟩, rfl⟩ := sizes
  have first : prioritized ⟨[a, b, c, d]⟩ [] [.shuffle, .shuffle] = .ok [c] := by
    simp [prioritized, Lexicon.find?, *]
  have same := (new_of_prioritized first).symm.trans eq
  rw [if_pos fit] at same
  rw [← (Tokenizer.mk.inj (Except.ok.inj same)).2]
  simp [longestFirst, List.mergeSort, List.MergeSort.Internal.splitInTwo, List.splitAt,
    List.splitAt.go, *]

end RulesText.Tokenizer
