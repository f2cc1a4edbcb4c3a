import RulesText.Gap.Candidate
import RulesText.Proofs.Sorting

/-!
# The weights in a trie

The trie is a map from runs of words to weights. To insert a text adds its weight to every run of
words that the text begins with, and the branches stay in ascending order.

## Main definitions

* `Trie.weight?`: the weight of a run of words.
* `Trie.IsSorted`: the branches of each node ascend.
* `Trie.nodes`: the runs of words in the trie with their weights and what is below them.
-/

namespace RulesText.Trie

/-- The weight at the end of a path. -/
def weight? : Trie → List Text → Option Nat
  | nil, _ => none
  | branch _ _ _ _, [] => none
  | branch word weight below others, x :: rest =>
    if x = word then
      if rest = [] then some weight else below.weight? rest
    else others.weight? (x :: rest)

/-- The branches side by side ascend, at all depths. -/
inductive IsSorted : Trie → Prop
  | nil : IsSorted nil
  | branch {word : Text} {weight : Nat} {below others : Trie} (first : ∀ y ∈ others.words, word < y)
      (sortedBelow : IsSorted below) (sortedOthers : IsSorted others) :
      IsSorted (branch word weight below others)

variable {t : Trie} {word x y : Text} {p q ws : List Text} {n v : Nat} {below others : Trie}

@[simp] theorem weight?_nil (t : Trie) : t.weight? [] = none := by
  cases t <;> rfl

@[simp] theorem words_nil : words nil = [] := rfl

@[simp] theorem words_branch (word : Text) (v : Nat) (below others : Trie) :
    (branch word v below others).words = word :: others.words := rfl

theorem weight?_same (rest : List Text) : (branch word v below others).weight? (word :: rest) =
    if rest = [] then some v else below.weight? rest :=
  if_pos rfl

theorem weight?_other (ne : x ≠ word) (rest : List Text) :
    (branch word v below others).weight? (x :: rest) = others.weight? (x :: rest) :=
  if_neg ne

theorem weight?_eq_none (notMem : x ∉ t.words) (rest : List Text) :
    t.weight? (x :: rest) = none := by
  induction t with
  | nil => rfl
  | branch word v below others _ ih =>
    rw [words_branch, List.mem_cons, not_or] at notMem
    rw [weight?_other notMem.1, ih notMem.2]

theorem isSome_weight?_singleton : (t.weight? [x]).isSome ↔ x ∈ t.words := by
  induction t with
  | nil => simp [weight?]
  | branch word v below others _ ih =>
    by_cases same : x = word
    · subst same
      simp [weight?_same]
    · rw [weight?_other same, ih, words_branch, List.mem_cons, or_iff_right same]

theorem IsSorted.pairwise_words (sorted : t.IsSorted) : t.words.Pairwise (· < ·) := by
  induction sorted with
  | nil => exact .nil
  | branch first _ _ _ ih => exact .cons first ih

/-! ## Insertion -/

theorem weight?_path (n : Nat) (ws p : List Text) :
    (path n ws).weight? p = if p ≠ [] ∧ p <+: ws then some n else none := by
  induction ws generalizing p with
  | nil =>
    cases p with
    | nil => simp
    | cons x p => simp [path, weight?]
  | cons word ws ih =>
    cases p with
    | nil => simp
    | cons x p =>
      by_cases same : x = word
      · subst same
        rw [path, weight?_same, ih]
        by_cases last : p = [] <;> simp [last, List.cons_prefix_cons]
      · rw [path, weight?_other same, weight?]
        simp [List.cons_prefix_cons, same]

theorem notMem_words (sorted : (branch y v below others).IsSorted) (lt : word < y) :
    word ∉ (branch y v below others).words := by
  cases sorted with
  | branch first _ _ =>
    intro mem
    rcases List.mem_cons.1 mem with rfl | mem
    · exact List.lt_irrefl word lt
    · exact List.lt_irrefl word (List.lt_trans lt (first word mem))

/-- An insertion adds its weight along its path, and nowhere else. -/
theorem weight?_insert (sorted : t.IsSorted) (n : Nat) (ws p : List Text) :
    (t.insert n ws).weight? p =
      if p ≠ [] ∧ p <+: ws then some ((t.weight? p).getD 0 + n) else t.weight? p := by
  rcases p with _ | ⟨x, p⟩
  · simp
  fun_induction insert n t ws generalizing x p with
  | case1 t => simp
  | case2 ws ne => simp [weight?_path, weight?]
  | case3 y v below others word rest less =>
    have absent := weight?_eq_none (notMem_words sorted (Text.compare_eq_lt_iff.1 less))
    by_cases same : x = word
    · subst same
      rw [weight?_same, weight?_path, absent]
      by_cases last : p = [] <;> simp [last, List.cons_prefix_cons]
    · rw [weight?_other same]
      simp [List.cons_prefix_cons, same]
  | case4 y v below others word rest equal ih =>
    obtain rfl := Text.compare_eq_eq_iff.1 equal
    cases sorted with
    | branch first sortedBelow sortedOthers =>
      by_cases same : x = word
      · subst same
        rw [weight?_same, weight?_same]
        cases p with
        | nil => simp [List.cons_prefix_cons]
        | cons z p => simp [ih sortedBelow, List.cons_prefix_cons]
      · rw [weight?_other same, weight?_other same]
        simp [List.cons_prefix_cons, same]
  | case5 y v below others word rest greater ih =>
    have ne : y ≠ word := by
      rintro rfl
      rw [Text.compare_eq_eq_iff.2 rfl] at greater
      contradiction
    cases sorted with
    | branch first sortedBelow sortedOthers =>
      by_cases same : x = y
      · subst same
        rw [weight?_same, weight?_same]
        simp [List.cons_prefix_cons, ne]
      · rw [weight?_other same, weight?_other same, ih sortedOthers]

theorem mem_words_insert : x ∈ (t.insert n (word :: ws)).words ↔ x = word ∨ x ∈ t.words := by
  induction t with
  | nil => simp [insert, path]
  | branch y v below others _ ih =>
    rw [insert]
    split
    · simp
    · rename_i equal
      obtain rfl := Text.compare_eq_eq_iff.1 equal
      simp
    · rw [words_branch, words_branch, List.mem_cons, List.mem_cons, ih, or_left_comm]

theorem isSorted_path (n : Nat) (ws : List Text) : (path n ws).IsSorted := by
  induction ws with
  | nil => exact .nil
  | cons word ws ih => exact .branch (by simp) ih .nil

theorem isSorted_insert (sorted : t.IsSorted) (n : Nat) (ws : List Text) :
    (t.insert n ws).IsSorted := by
  fun_induction insert n t ws with
  | case1 => exact sorted
  | case2 ws => exact isSorted_path n ws
  | case3 y v below others word rest less =>
    have lt := Text.compare_eq_lt_iff.1 less
    refine .branch (fun z mem => ?_) (isSorted_path n rest) sorted
    cases sorted with
    | branch first _ _ =>
      rcases List.mem_cons.1 mem with rfl | mem
      · exact lt
      · exact List.lt_trans lt (first z mem)
  | case4 y v below others word rest equal ih =>
    cases sorted with
    | branch first sortedBelow sortedOthers => exact .branch first (ih sortedBelow) sortedOthers
  | case5 y v below others word rest greater ih =>
    cases sorted with
    | branch first sortedBelow sortedOthers =>
      refine .branch (fun z mem => ?_) sortedBelow (ih sortedOthers)
      rcases mem_words_insert.1 mem with rfl | mem
      · exact Text.compare_eq_lt_iff.1 (Std.OrientedCmp.lt_of_gt greater)
      · exact first z mem

/-! ## Nodes -/

/-- The runs of words in the trie, in the order of its candidates, each with its weight and what
is below it. -/
def nodes : Trie → List (List Text × Nat × Trie)
  | nil => []
  | branch word weight below others =>
    ([word], weight, below) ::
      (below.nodes.map (fun (p, node) => (word :: p, node)) ++ others.nodes)

theorem candidatesBelow_eq (stem : List Text) (t : Trie) : t.candidatesBelow stem =
    t.nodes.map fun (p, weight, below) => candidateAt (stem ++ p) weight below := by
  induction t generalizing stem with
  | nil => rfl
  | branch word v below others below_ih others_ih =>
    rw [candidatesBelow, below_ih, others_ih, nodes, List.map_cons, List.map_append, List.map_map]
    simp [Function.comp_def]

theorem candidates_eq (t : Trie) : t.candidates =
    t.nodes.map fun (p, weight, below) => candidateAt p weight below :=
  candidatesBelow_eq [] t

theorem mem_nodes_branch {node : Nat × Trie} : (p, node) ∈ (branch word v below others).nodes ↔
    (p = [word] ∧ node = (v, below)) ∨ (∃ q, (q, node) ∈ below.nodes ∧ p = word :: q) ∨
      (p, node) ∈ others.nodes := by
  simp [nodes, eq_comm]

/-- A node stands on or below one of the branches. -/
theorem exists_cons_of_mem_nodes {node : Nat × Trie} (mem : (p, node) ∈ t.nodes) :
    ∃ x ∈ t.words, ∃ q, p = x :: q := by
  induction t generalizing p with
  | nil => simp [nodes] at mem
  | branch word v below others _ ih =>
    rcases mem_nodes_branch.1 mem with ⟨rfl, -⟩ | ⟨q, -, rfl⟩ | mem
    · exact ⟨word, List.mem_cons_self, [], rfl⟩
    · exact ⟨word, List.mem_cons_self, q, rfl⟩
    · obtain ⟨x, mem, eq⟩ := ih mem
      exact ⟨x, List.mem_cons_of_mem _ mem, eq⟩

/-- A node has the weight of its words, and what is below it has the weights of longer runs. -/
theorem weight?_of_mem_nodes (sorted : t.IsSorted) (mem : (p, n, below) ∈ t.nodes) :
    t.weight? p = some n ∧ below.IsSorted ∧ ∀ q, q ≠ [] → t.weight? (p ++ q) = below.weight? q := by
  induction sorted generalizing p with
  | nil => simp [nodes] at mem
  | @branch word v b others first sortedBelow _ below_ih others_ih =>
    rcases mem_nodes_branch.1 mem with ⟨rfl, eq⟩ | ⟨r, inside, rfl⟩ | outside
    · obtain ⟨rfl, rfl⟩ := Prod.mk.inj eq
      exact ⟨by simp [weight?_same], sortedBelow, fun q ne => by simp [weight?_same, ne]⟩
    · obtain ⟨weight, sorted, later⟩ := below_ih inside
      obtain ⟨x, -, r, rfl⟩ := exists_cons_of_mem_nodes inside
      refine ⟨by simpa [weight?_same] using weight, sorted, fun q ne => ?_⟩
      simpa [weight?_same] using later q ne
    · obtain ⟨weight, sorted, later⟩ := others_ih outside
      obtain ⟨x, mem_x, q, rfl⟩ := exists_cons_of_mem_nodes outside
      have ne : x ≠ word := by
        rintro rfl
        exact List.lt_irrefl x (first x mem_x)
      refine ⟨by rw [weight?_other ne, weight], sorted, fun r nonempty => ?_⟩
      rw [← later r nonempty, List.cons_append, weight?_other ne]

/-- What has a weight is a node. -/
theorem exists_mem_nodes (h : t.weight? p = some n) : ∃ below, (p, n, below) ∈ t.nodes := by
  fun_induction weight? t p with
  | case1 => contradiction
  | case2 => contradiction
  | case3 v below others x =>
    obtain rfl := Option.some.inj h
    exact ⟨below, mem_nodes_branch.2 (.inl ⟨rfl, rfl⟩)⟩
  | case4 v below others x rest ne ih =>
    obtain ⟨b, mem⟩ := ih h
    exact ⟨b, mem_nodes_branch.2 (.inr (.inl ⟨rest, mem, rfl⟩))⟩
  | case5 word v below others x rest ne ih =>
    obtain ⟨b, mem⟩ := ih h
    exact ⟨b, mem_nodes_branch.2 (.inr (.inr mem))⟩

/-- The runs of words in the trie. -/
def stems : Trie → List (List Text)
  | nil => []
  | branch word _ below others => [word] :: (below.stems.map (word :: ·) ++ others.stems)

theorem map_nodes (t : Trie) : t.nodes.map (·.1) = t.stems := by
  induction t with
  | nil => rfl
  | branch word v below others below_ih others_ih =>
    rw [nodes, stems, ← below_ih, ← others_ih, List.map_cons, List.map_append, List.map_map,
      List.map_map]
    rfl

theorem mem_stems : p ∈ t.stems ↔ ∃ node, (p, node) ∈ t.nodes := by
  rw [← map_nodes, List.mem_map]
  constructor
  · rintro ⟨⟨_, node⟩, mem, rfl⟩
    exact ⟨node, mem⟩
  · rintro ⟨node, mem⟩
    exact ⟨(p, node), mem, rfl⟩

theorem exists_cons_of_mem_stems (mem : p ∈ t.stems) : ∃ x ∈ t.words, ∃ q, p = x :: q := by
  obtain ⟨node, mem⟩ := mem_stems.1 mem
  exact exists_cons_of_mem_nodes mem

/-- The runs of words ascend: each comes before those that it begins. -/
theorem pairwise_stems (sorted : t.IsSorted) : t.stems.Pairwise (· < ·) := by
  induction sorted with
  | nil => exact .nil
  | @branch word v below others first _ _ below_ih others_ih =>
    have after (q : List Text) : ∀ p ∈ others.stems, word :: q < p := by
      intro p mem_p
      obtain ⟨x, mem_x, r, rfl⟩ := exists_cons_of_mem_stems mem_p
      exact List.cons_lt_cons_iff.2 (.inl (first x mem_x))
    have same {p q : List Text} (lt : p < q) : word :: p < word :: q :=
      List.cons_lt_cons_iff.2 (.inr ⟨rfl, lt⟩)
    refine List.pairwise_cons.2 ⟨fun p mem_p => ?_, List.pairwise_append.2 ⟨?_, others_ih, ?_⟩⟩
    · rcases List.mem_append.1 mem_p with mem_p | mem_p
      · obtain ⟨q, mem_q, rfl⟩ := List.mem_map.1 mem_p
        obtain ⟨x, -, r, rfl⟩ := exists_cons_of_mem_stems mem_q
        exact same (List.nil_lt_cons x r)
      · exact after [] p mem_p
    · exact below_ih.map _ fun _ _ => same
    · intro p mem_p q mem_q
      obtain ⟨r, -, rfl⟩ := List.mem_map.1 mem_p
      exact after r q mem_q

/-- What has a weight is in the trie. -/
theorem mem_stems_iff (sorted : t.IsSorted) : p ∈ t.stems ↔ (t.weight? p).isSome := by
  rw [mem_stems, Option.isSome_iff_exists]
  constructor
  · rintro ⟨⟨n, below⟩, mem⟩
    exact ⟨n, (weight?_of_mem_nodes sorted mem).1⟩
  · rintro ⟨n, found⟩
    obtain ⟨below, mem⟩ := exists_mem_nodes found
    exact ⟨_, mem⟩

end RulesText.Trie
