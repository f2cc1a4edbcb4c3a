import Mathlib.Algebra.BigOperators.Group.List.Defs
import Mathlib.Algebra.GroupWithZero.Nat
import Mathlib.Data.List.Induction
import Mathlib.Data.List.Sort
import RulesText.Proofs.Gap.Trie
import RulesText.Proofs.Sorting
import RulesText.Proofs.Text.Words

/-!
# The candidates of weighted texts

There is one candidate for every run of words that some of the texts begin with. What it says is
determined by the words of the texts and their weights, whatever the order in which the texts are
put into the trie.

## Main definitions

* `Candidate.IsStem`: some text begins with a run of words.
* `Candidate.IsOf`: a candidate says about a run of words what is the case in the texts.
* `Candidate.Precedes`: a candidate comes before another one.
-/

namespace RulesText

/-! ## Weights -/

namespace Candidate

/-- Some text begins with the words. -/
def IsStem (weighted : List (Text × Nat)) (p : List Text) : Prop :=
  p ≠ [] ∧ ∃ e ∈ weighted, p <+: Text.words e.1

/-- The weight of the texts that begin with the words. -/
def supportOf (weighted : List (Text × Nat)) (p : List Text) : Nat :=
  ((weighted.filter fun e => p.isPrefixOf (Text.words e.1)).map (·.2)).sum

/-- What the candidate of a run of words says is so in the texts. -/
structure IsOf (weighted : List (Text × Nat)) (p : List Text) (c : Candidate) : Prop where
  stem : c.stem = Text.unwords p
  support : c.support = supportOf weighted p
  ascending : c.nextWords.Pairwise (· < ·)
  mem_nextWords : ∀ x, x ∈ c.nextWords ↔ ∃ e ∈ weighted, p ++ [x] <+: Text.words e.1
  branching : c.branching = c.nextWords.length
  length : c.length = p.length
  fitness : c.fitness = c.support * c.branching * c.length

variable {weighted others : List (Text × Nat)} {e : Text × Nat} {p : List Text}

theorem isStem_cons : IsStem (e :: weighted) p ↔
    (p ≠ [] ∧ p <+: Text.words e.1) ∨ IsStem weighted p := by
  simp only [IsStem, List.exists_mem_cons_iff, and_or_left]

theorem supportOf_cons (e : Text × Nat) (weighted : List (Text × Nat)) (p : List Text) :
    supportOf (e :: weighted) p =
      (if p <+: Text.words e.1 then e.2 else 0) + supportOf weighted p := by
  rw [supportOf, List.filter_cons]
  by_cases part : p <+: Text.words e.1
  · rw [if_pos part, if_pos (List.isPrefixOf_iff_prefix.2 part), List.map_cons, List.sum_cons,
      supportOf]
  · rw [if_neg part, if_neg (mt List.isPrefixOf_iff_prefix.1 part), Nat.zero_add, supportOf]

theorem isStem_perm (perm : weighted.Perm others) : IsStem weighted p ↔ IsStem others p := by
  simp only [IsStem, perm.mem_iff]

theorem supportOf_perm (perm : weighted.Perm others) (p : List Text) :
    supportOf weighted p = supportOf others p :=
  ((perm.filter _).map _).sum_nat

end Candidate

namespace Trie

open Candidate

variable {weighted : List (Text × Nat)} {p : List Text} {n : Nat} {below : Trie}

theorem ofWeighted_concat (weighted : List (Text × Nat)) (e : Text × Nat) :
    ofWeighted (weighted ++ [e]) = (ofWeighted weighted).insert e.2 (Text.words e.1) := by
  rw [ofWeighted, List.foldl_append]
  rfl

theorem isSorted_ofWeighted (weighted : List (Text × Nat)) : (ofWeighted weighted).IsSorted := by
  induction weighted using List.reverseRecOn with
  | nil => exact .nil
  | append_singleton weighted e ih =>
    rw [ofWeighted_concat]
    exact isSorted_insert ih _ _

/-- The trie has the runs of words that some text begins with. -/
theorem isSome_weight?_ofWeighted :
    ((ofWeighted weighted).weight? p).isSome ↔ IsStem weighted p := by
  induction weighted using List.reverseRecOn with
  | nil => simp [ofWeighted, weight?, IsStem]
  | append_singleton weighted e ih =>
    rw [ofWeighted_concat, weight?_insert (isSorted_ofWeighted weighted),
      isStem_perm (List.perm_append_singleton e weighted), isStem_cons, ← ih]
    split
    · rename_i begins
      exact iff_of_true rfl (.inl begins)
    · rename_i other
      exact (or_iff_right other).symm

/-- Their weight is that of the texts. -/
theorem getD_weight?_ofWeighted (ne : p ≠ []) :
    ((ofWeighted weighted).weight? p).getD 0 = supportOf weighted p := by
  induction weighted using List.reverseRecOn with
  | nil => rfl
  | append_singleton weighted e ih =>
    rw [ofWeighted_concat, weight?_insert (isSorted_ofWeighted weighted),
      supportOf_perm (List.perm_append_singleton e weighted), supportOf_cons, ← ih, Nat.add_comm]
    by_cases part : p <+: Text.words e.1 <;> simp [ne, part]

theorem mem_stems_ofWeighted : p ∈ (ofWeighted weighted).stems ↔ IsStem weighted p :=
  (mem_stems_iff (isSorted_ofWeighted weighted)).trans isSome_weight?_ofWeighted

/-- Every node gives the candidate of its words. -/
theorem isOf_candidateAt (mem : (p, n, below) ∈ (ofWeighted weighted).nodes) :
    IsOf weighted p (candidateAt p n below) := by
  obtain ⟨weight, sorted, later⟩ := weight?_of_mem_nodes (isSorted_ofWeighted weighted) mem
  obtain ⟨x, -, q, rfl⟩ := exists_cons_of_mem_nodes mem
  have support : ((ofWeighted weighted).weight? (x :: q)).getD 0 = supportOf weighted (x :: q) :=
    getD_weight?_ofWeighted (List.cons_ne_nil x q)
  rw [weight, Option.getD_some] at support
  refine ⟨rfl, support, sorted.pairwise_words, fun y => ?_, rfl, rfl, rfl⟩
  rw [candidateAt, ← isSome_weight?_singleton, ← later [y] (List.cons_ne_nil y []),
    isSome_weight?_ofWeighted, IsStem,
    and_iff_right (List.append_ne_nil_of_left_ne_nil (by simp) _)]

/-- So what a list of nodes gives is a list of candidates. -/
theorem forall₂_isOf {order : List (List Text × Nat × Trie)}
    (nodes : ∀ node ∈ order, node ∈ (ofWeighted weighted).nodes) :
    List.Forall₂ (IsOf weighted) (order.map (·.1))
      (order.map fun (p, n, below) => candidateAt p n below) := by
  rw [List.forall₂_map_left_iff, List.forall₂_map_right_iff, List.forall₂_same]
  exact fun node mem => isOf_candidateAt (nodes node mem)

theorem forall₂_candidates (weighted : List (Text × Nat)) :
    List.Forall₂ (IsOf weighted) (ofWeighted weighted).stems (ofWeighted weighted).candidates := by
  rw [← map_nodes, candidates_eq]
  exact forall₂_isOf fun node mem => mem

example : (ofWeighted [("scry 2", 1), ("scry 1", 3)]).candidates.map
    (fun c => (c.support, c.branching, c.fitness)) = [(4, 2, 8), (3, 0, 0), (1, 0, 0)] := by
  decide +kernel

end Trie

namespace Candidate

variable {weighted others : List (Text × Nat)} {stems : List (List Text)} {p q : List Text}
  {a b c : Candidate} {candidates : List Candidate}

theorem IsOf.unique (ha : IsOf weighted p a) (hb : IsOf weighted p b) : a = b := by
  obtain ⟨stem, nextWords, support, branching, length, fitness⟩ := a
  obtain ⟨stem', nextWords', support', branching', length', fitness'⟩ := b
  have words : nextWords = nextWords' := ha.ascending.eq_of_mem_iff hb.ascending fun x =>
    (ha.mem_nextWords x).trans (hb.mem_nextWords x).symm
  have stems : stem = stem' := ha.stem.trans hb.stem.symm
  have supports : support = support' := ha.support.trans hb.support.symm
  have lengths : length = length' := ha.length.trans hb.length.symm
  have branchings : branching = branching' :=
    ha.branching.trans ((congrArg _ words).trans hb.branching.symm)
  subst stems words supports lengths branchings
  rw [Candidate.mk.injEq]
  exact ⟨rfl, rfl, rfl, rfl, rfl, ha.fitness.trans hb.fitness.symm⟩

/-! ## The order of candidates -/

/-- `a` is fitter than `b`; or as fit and with more support; or with as much support and longer;
or as long, and its text comes first. -/
def Precedes (a b : Candidate) : Prop :=
  b.fitness < a.fitness ∨ (a.fitness = b.fitness ∧ (b.support < a.support ∨
    (a.support = b.support ∧ (b.length < a.length ∨ (a.length = b.length ∧ a.stem < b.stem)))))

theorem precedes_iff : a.Precedes b ↔ compare a b = .lt := by
  simp only [Precedes, compare, Ordering.then_eq_lt, Ordering.then_eq_eq, Nat.compare_eq_lt,
    Nat.compare_eq_eq, Text.compare_eq_lt_iff]
  grind

theorem stem_eq_of_compare (h : compare a b = .eq) : a.stem = b.stem := by
  rw [compare, Ordering.then_eq_eq] at h
  exact Text.compare_eq_eq_iff.1 h.2

instance : Std.TransCmp compare :=
  have : Std.TransCmp fun a b : Candidate => Ord.compare b.fitness a.fitness :=
    @Std.TransCmp.opposite _ (compareOn Candidate.fitness) inferInstance
  have : Std.TransCmp fun a b : Candidate => Ord.compare b.support a.support :=
    @Std.TransCmp.opposite _ (compareOn Candidate.support) inferInstance
  have : Std.TransCmp fun a b : Candidate => Ord.compare b.length a.length :=
    @Std.TransCmp.opposite _ (compareOn Candidate.length) inferInstance
  have : Std.TransCmp fun a b : Candidate => Text.compare a.stem b.stem :=
    inferInstanceAs (Std.TransCmp (compareOn Candidate.stem))
  inferInstanceAs (Std.TransCmp (compareLex (compareLex (compareLex _ _) _) _))

/-- Candidates that precede others are in a strict order. -/
instance : IsStrictOrder Candidate Precedes where
  irrefl a h := by
    have self : compare a a = .eq := Std.ReflCmp.compare_self
    rw [precedes_iff, self] at h
    contradiction
  trans a b c ab bc :=
    precedes_iff.2 (Std.TransCmp.lt_trans (precedes_iff.1 ab) (precedes_iff.1 bc))

/-! ## Ranks -/

/-- The stems of weighted texts, each once. -/
structure AreStems (weighted : List (Text × Nat)) (stems : List (List Text)) : Prop where
  nodup : stems.Nodup
  mem_iff : ∀ p, p ∈ stems ↔ IsStem weighted p

theorem isWord_of_isStem (h : IsStem weighted p) : ∀ x ∈ p, Text.IsWord x := by
  obtain ⟨-, e, -, part⟩ := h
  exact fun x mem => Text.isWord_of_mem_words (part.subset mem)

theorem exists_stems_rank (weighted : List (Text × Nat)) :
    ∃ stems, AreStems weighted stems ∧ List.Forall₂ (IsOf weighted) stems (rank weighted) := by
  have ascending := Trie.pairwise_stems (Trie.isSorted_ofWeighted weighted)
  obtain ⟨order, perm, sorted⟩ := Sorting.exists_map compare
    (fun (p, n, below) => Trie.candidateAt p n below) (Trie.ofWeighted weighted).nodes
  have perm' := perm.map (·.1)
  rw [Trie.map_nodes] at perm'
  refine ⟨order.map (·.1), ⟨perm'.nodup_iff.2 ascending.nodup, fun p => ?_⟩, ?_⟩
  · rw [perm'.mem_iff, Trie.mem_stems_ofWeighted]
  · rw [rank, Trie.candidates_eq, sorted]
    exact Trie.forall₂_isOf fun node mem => perm.mem_iff.1 mem

theorem stems_eq (are : List.Forall₂ (IsOf weighted) stems candidates) :
    candidates.map (·.stem) = stems.map Text.unwords := by
  induction are with
  | nil => rfl
  | cons isOf _ ih => rw [List.map_cons, List.map_cons, isOf.stem, ih]

theorem pairwise_precedes_rank (weighted : List (Text × Nat)) :
    (rank weighted).Pairwise Precedes := by
  obtain ⟨stems, areStems, are⟩ := exists_stems_rank weighted
  have distinct : ((rank weighted).map (·.stem)).Nodup := by
    rw [stems_eq are]
    exact areStems.nodup.map_on fun p mem q mem' eq =>
      Text.unwords_inj (isWord_of_isStem ((areStems.mem_iff p).1 mem))
        (isWord_of_isStem ((areStems.mem_iff q).1 mem')) eq
  have different := (List.pairwise_map.1 distinct).imp fun ne eq => ne (stem_eq_of_compare eq)
  exact (Sorting.pairwise_lt different (Sorting.pairwise_isLE compare _)).imp precedes_iff.2

/-! ## Texts with the same weights -/

/-- The same runs of words begin texts, with the same weight. -/
structure SameWeights (weighted others : List (Text × Nat)) : Prop where
  isStem_iff : ∀ p, IsStem weighted p ↔ IsStem others p
  supportOf_eq : ∀ p, supportOf weighted p = supportOf others p

theorem isStem_append_singleton (weighted : List (Text × Nat)) (p : List Text) (x : Text) :
    IsStem weighted (p ++ [x]) ↔ ∃ e ∈ weighted, p ++ [x] <+: Text.words e.1 :=
  and_iff_right (by simp)

theorem IsOf.congr (same : SameWeights weighted others) (h : IsOf weighted p c) :
    IsOf others p c where
  stem := h.stem
  support := h.support.trans (same.supportOf_eq p)
  ascending := h.ascending
  mem_nextWords x := by
    rw [h.mem_nextWords, ← isStem_append_singleton, ← isStem_append_singleton, same.isStem_iff]
  branching := h.branching
  length := h.length
  fitness := h.fitness

/-- The weights determine the candidates. -/
theorem candidates_congr (same : SameWeights weighted others) :
    (Trie.ofWeighted weighted).candidates = (Trie.ofWeighted others).candidates := by
  have stems : (Trie.ofWeighted weighted).stems = (Trie.ofWeighted others).stems := by
    refine (Trie.pairwise_stems (Trie.isSorted_ofWeighted _)).eq_of_mem_iff
      (Trie.pairwise_stems (Trie.isSorted_ofWeighted _)) fun p => ?_
    rw [Trie.mem_stems_ofWeighted, Trie.mem_stems_ofWeighted, same.isStem_iff]
  have own := (Trie.forall₂_candidates weighted).imp fun _ _ isOf => isOf.congr same
  rw [stems] at own
  have unique : Relator.RightUnique (IsOf others) := fun _ _ _ => IsOf.unique
  exact List.right_unique_forall₂' unique own (Trie.forall₂_candidates others)

theorem rank_congr (same : SameWeights weighted others) : rank weighted = rank others := by
  rw [rank, rank, candidates_congr same]

theorem sameWeights_perm (perm : weighted.Perm others) : SameWeights weighted others :=
  ⟨fun _ => isStem_perm perm, supportOf_perm perm⟩

/-- Two texts with the same words weigh as much as one of them with both weights. -/
theorem sameWeights_merge {s t u : Text} {m n : Nat} (ht : Text.words t = Text.words s)
    (hu : Text.words u = Text.words s) :
    SameWeights ((s, m) :: (t, n) :: weighted) ((u, m + n) :: weighted) where
  isStem_iff p := by
    rw [isStem_cons, isStem_cons, isStem_cons, ht, hu, ← or_assoc, or_self]
  supportOf_eq p := by
    rw [supportOf_cons, supportOf_cons, supportOf_cons, ht, hu, ← Nat.add_assoc]
    split <;> rfl

/-- A ranking has one candidate for each run of words that texts begin with, and says about it
what is so in the texts. The candidates are in a strict order. The trie has the same ones, each
before those that continue it. Only the words of the texts and their weights count. -/
theorem rank_spec (weighted : List (Text × Nat)) :
    (∃ stems, AreStems weighted stems ∧ List.Forall₂ (IsOf weighted) stems (rank weighted)) ∧
    IsStrictOrder Candidate Precedes ∧ (rank weighted).Pairwise Precedes ∧
    (∃ stems, AreStems weighted stems ∧ stems.Pairwise (fun p q => p < q ∧ ¬q <+: p) ∧
      List.Forall₂ (IsOf weighted) stems (Trie.ofWeighted weighted).candidates) ∧
    (∀ others, others.Perm weighted → rank others = rank weighted) ∧
    ∀ s t u m n others, weighted.Perm ((s, m) :: (t, n) :: others) →
      Text.words t = Text.words s → Text.words u = Text.words s →
      rank ((u, m + n) :: others) = rank weighted := by
  have ascending := Trie.pairwise_stems (Trie.isSorted_ofWeighted weighted)
  refine ⟨exists_stems_rank weighted, inferInstance, pairwise_precedes_rank weighted,
    ⟨_, ⟨ascending.nodup, fun p => Trie.mem_stems_ofWeighted⟩, ?_,
      Trie.forall₂_candidates weighted⟩,
    fun others perm => rank_congr (sameWeights_perm perm), ?_⟩
  · exact ascending.imp fun lt => ⟨lt, fun part => part.le lt⟩
  · intro s t u m n others perm ht hu
    rw [rank_congr (sameWeights_perm perm), rank_congr (sameWeights_merge ht hu)]

end Candidate

end RulesText
