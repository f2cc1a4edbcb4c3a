import Mathlib.Algebra.BigOperators.Group.List.Basic
import Mathlib.Algebra.GroupWithZero.Nat
import Mathlib.Data.List.Nodup
import RulesText.Proofs.Gap.SuffixConstruction

/-!
# Counts of a suffix automaton

While an automaton is built, a state counts 1 if its longest run is a start of the sequence. A
run ends at some place because its longest run starts there or because a run of one of the states
that link to it ends there, so the counts sum up to the numbers of end positions when every state
passes its count on after all longer ones.

## Main definitions

* `SuffixAutomaton.CountsOwn`: what the states count at first.
* `SuffixAutomaton.CountsEnds`: what the states count in the end.
* `SuffixAutomaton.Enumerates`: an order in which counts can be passed on.
* `SuffixAutomaton.SameShape`: automata that differ in their counts only.
-/

namespace RulesText

open Function (update_self)

/-- What the state of a longest run counts by itself: 1 for a start of the sequence. -/
def ownCount (s w : List Nat) : Nat :=
  if w ≠ [] ∧ w <+: s then 1 else 0

theorem ownCount_append {s w : List Nat} (h : w.length ≤ s.length) (x : Nat) :
    ownCount (s ++ [x]) w = ownCount s w := by
  have : w <+: s ++ [x] ↔ w <+: s :=
    ⟨fun start => List.prefix_of_prefix_length_le start (List.prefix_append s [x]) h,
      fun start => start.trans (List.prefix_append s [x])⟩
  simp only [ownCount, this]

theorem ownCount_self (s : List Nat) (x : Nat) : ownCount (s ++ [x]) (s ++ [x]) = 1 := by
  simp [ownCount]

/-- The place where a run ends that starts the sequence. -/
def startPositions (s w : List Nat) : List Nat :=
  if w <+: s then [w.length - 1] else []

section

variable {s w : List Nat} {i : Nat}

theorem mem_startPositions (ne : w ≠ []) :
    i ∈ startPositions s w ↔ w <+: s ∧ w.length = i + 1 := by
  have pos := List.length_pos_iff.2 ne
  by_cases start : w <+: s
  · rw [startPositions, if_pos start, List.mem_singleton, and_iff_right start]
    omega
  · simp [startPositions, start]

theorem nodup_startPositions : (startPositions s w).Nodup := by
  rw [startPositions]
  split <;> simp

theorem length_startPositions (ne : w ≠ []) : (startPositions s w).length = ownCount s w := by
  simp only [startPositions, ownCount, ne, ne_eq, not_false_eq_true, true_and]
  split <;> rfl

end

namespace SuffixAutomaton

variable {a b : SuffixAutomaton} {s : List Nat} {run : Nat → List Nat} {v u x p q : Nat}

/-- Every state counts what it counts by itself. -/
def CountsOwn (a : SuffixAutomaton) (s : List Nat) (run : Nat → List Nat) : Prop :=
  ∀ v < a.states.size, (a.state v).count = ownCount s (run v)

/-! ## Counts while an automaton is built -/

theorem Faithful.countsOwn_linked (h : a.Faithful s run) (own : a.CountsOwn s run) (u : Nat) :
    (a.linked x u).CountsOwn (s ++ [x]) (Function.update run a.states.size (s ++ [x])) := by
  intro v hv
  rw [size_linked] at hv
  rw [state_linked]
  rcases Nat.lt_succ_iff_lt_or_eq.1 hv with hv | rfl
  · obtain ⟨-, -, -, count⟩ := h.fields_grown (x := x) hv
    rw [if_neg (by omega), count, own v hv, update_run_of_lt hv,
      ownCount_append (h.length_run_le hv)]
  · rw [if_pos rfl, h.state_grown, if_pos rfl, update_self, ownCount_self]

theorem Cut.countsOwn_divided (c : Cut a run x p q) (h : a.Faithful s run)
    (own : a.CountsOwn s run) (length : Nat) :
    (a.divided x length q).CountsOwn (s ++ [x]) (dividedRun a s run x p) := by
  intro v hv
  rw [size_divided] at hv
  rcases (by omega : v < a.states.size ∨ v = a.states.size ∨ v = a.states.size + 1) with
    hv | rfl | rfl
  · rw [(c.fields_divided h length hv).2.2.1, own v hv, dividedRun_of_lt hv,
      ownCount_append (h.length_run_le hv)]
  · rw [c.state_divided h, if_neg (by omega), if_pos rfl, h.state_grown, if_pos rfl,
      dividedRun_size, ownCount_self]
  · -- a start of the sequence is the longest run of its class, so none is split off
    have old := c.isOldEnd h
    have not : ¬run p ++ [x] <+: s := fun start => by
      have := (IsLongest.of_isPrefix start).eq_of_sameEnds
        (h.describes q (c.lt_size h)).isLongest (c.sameEnds h)
      exact Nat.ne_of_lt (c.length_lt h) (congrArg List.length this)
    rw [c.state_divided h, if_pos rfl, dividedRun_size_succ,
      ownCount_append old.isInfix.length_le]
    simp [ownCount, not]

/-- The automaton that is built element by element is faithful to the whole sequence. -/
theorem exists_faithful (s : List Nat) :
    ∃ run, (s.foldl extend {}).Faithful s run ∧ (s.foldl extend {}).CountsOwn s run := by
  induction s using List.reverseRecOn with
  | nil =>
    refine ⟨_, faithful_empty, fun v hv => ?_⟩
    obtain rfl : v = 0 := by simpa using hv
    rfl
  | append_singleton s x ih =>
    obtain ⟨run, h, own⟩ := ih
    rw [List.foldl_append, List.foldl_cons, List.foldl_nil]
    rcases h.extend_cases x with ⟨u, hu, old, eq⟩ | ⟨p, q, cut, eq⟩
    · exact ⟨_, eq ▸ h.linked hu old, eq ▸ h.countsOwn_linked own u⟩
    · exact ⟨_, eq ▸ cut.faithful h, eq ▸ cut.countsOwn_divided h own _⟩

/-! ## Where the runs of a state end -/

namespace Faithful

/-- A run that is one element longer than the run of a state's link belongs to the state. -/
theorem eq_of_link (h : a.Faithful s run) (hu : u < a.states.size) (hv : v < a.states.size)
    {y : Nat} (same : SameEnds s (y :: run v) (run u)) : (a.state u).link? = some v := by
  have inside := (h.describes u hu).isLongest.isSuffix same
  have suffix : run v <:+ run u := (List.suffix_cons y _).trans inside
  have ne : run u ≠ [] := fun nil => by simp [nil] at inside
  have longer : (run v).length < (run u).length := inside.length_le
  obtain ⟨t, ht, link, suffix_t, shorter, class_u⟩ := (h.describes u hu).link ne
  have le : (run t).length ≤ (run v).length := by
    by_contra lt
    have := List.suffix_of_suffix_length_le inside suffix_t (Nat.lt_of_not_le lt)
    have := h.eq_of_sameEnds ht hu (same.of_between this suffix_t)
    simp [this] at shorter
  have ge : (run v).length ≤ (run t).length := by
    by_contra lt
    have := h.eq_of_sameEnds hv hu (class_u _ suffix (Nat.lt_of_not_le lt))
    simp [this] at longer
  have eq : run t = run v :=
    (List.suffix_of_suffix_length_le suffix_t suffix le).eq_of_length (by omega)
  rw [link, h.injective t ht v hv eq]

/-- The longest run of a state ends at a place because it starts the sequence, or because a run
of a state with a link to it ends there. -/
theorem endsAt_iff (h : a.Faithful s run) (hv : v < a.states.size) {i : Nat} :
    EndsAt s (run v) i ↔ (run v <+: s ∧ (run v).length = i) ∨
      ∃ u < a.states.size, (a.state u).link? = some v ∧ EndsAt s (run u) i := by
  constructor
  · intro ends
    obtain ⟨front, eq⟩ := ends.2
    rcases List.eq_nil_or_concat' front with rfl | ⟨front, y, rfl⟩
    · refine .inl ⟨?_, ?_⟩
      · rw [List.nil_append] at eq
        exact eq ▸ s.take_prefix i
      · have := ends.1
        rw [List.nil_append] at eq
        simp [eq, this]
    · have longer : EndsAt s (y :: run v) i := ⟨ends.1, front, by simpa using eq⟩
      obtain ⟨u, hu, same⟩ := h.exists_state _ (isInfix_iff_endsAt.2 ⟨i, longer⟩)
      exact .inr ⟨u, hu, h.eq_of_link hu hv same, (same i).1 longer⟩
  · rintro (⟨start, rfl⟩ | ⟨u, hu, link, ends⟩)
    · obtain ⟨back, rfl⟩ := start
      exact (endsAt_append_of_le le_rfl).2 (endsAt_length.2 List.suffix_rfl)
    · obtain ⟨-, suffix, -⟩ := h.link_spec hu link
      exact ends.of_isSuffix suffix

/-- The runs of two states that link to one state never end at the same place. -/
theorem eq_of_endsAt (h : a.Faithful s run) {w : Nat} (hu : u < a.states.size)
    (hw : w < a.states.size) (link_u : (a.state u).link? = some v)
    (link_w : (a.state w).link? = some v) {i : Nat} (ends_u : EndsAt s (run u) i)
    (ends_w : EndsAt s (run w) i) : u = w := by
  obtain ⟨-, suffix_u, shorter_u, class_u⟩ := h.link_spec hu link_u
  obtain ⟨-, suffix_w, shorter_w, class_w⟩ := h.link_spec hw link_w
  obtain ⟨front, eq⟩ := suffix_u
  rcases List.eq_nil_or_concat' front with rfl | ⟨front, y, rfl⟩
  · simp [← eq] at shorter_u
  · have inside_u : y :: run v <:+ run u := ⟨front, by simpa using eq⟩
    have inside_w : y :: run v <:+ run w :=
      (ends_u.of_isSuffix inside_u).isSuffix ends_w shorter_w
    exact h.eq_of_sameEnds hu hw
      ((class_u _ inside_u (by simp)).symm.trans (class_w _ inside_w (by simp)))

end Faithful

/-! ## The sum over links -/

/-- The states among `order` whose links lead to `v`. -/
def linkedTo (a : SuffixAutomaton) (order : List Nat) (v : Nat) : List Nat :=
  order.filter fun u => (a.state u).link? == some v

theorem mem_linkedTo {order : List Nat} :
    u ∈ a.linkedTo order v ↔ u ∈ order ∧ (a.state u).link? = some v := by
  simp [linkedTo]

/-- The number of places at which the runs of a state end. -/
def total (s : List Nat) (run : Nat → List Nat) (v : Nat) : Nat :=
  (endPositions s (run v)).length

/-- Every state but the first one counts the places at which its runs end. -/
def CountsEnds (a : SuffixAutomaton) (s : List Nat) (run : Nat → List Nat) : Prop :=
  ∀ v < a.states.size, v ≠ 0 → (a.state v).count = total s run v

/-- The states other than the first one. -/
def otherStates (a : SuffixAutomaton) : List Nat :=
  (List.range a.states.size).drop 1

theorem mem_otherStates : v ∈ a.otherStates ↔ v ≠ 0 ∧ v < a.states.size := by
  rw [otherStates, List.range_eq_range', List.drop_range', List.mem_range'_1]
  omega

theorem nodup_otherStates : a.otherStates.Nodup :=
  List.nodup_range.sublist (List.drop_sublist ..)

/-- The states other than the first one, each once and those with longer runs first. -/
structure Enumerates (a : SuffixAutomaton) (order : List Nat) : Prop where
  nodup : order.Nodup
  mem_iff : ∀ v, v ∈ order ↔ v ≠ 0 ∧ v < a.states.size
  sorted : order.Pairwise fun u v => (a.state v).length ≤ (a.state u).length

theorem enumerates_byLength : a.Enumerates a.byLength where
  nodup := (List.mergeSort_perm a.otherStates _).nodup_iff.2 nodup_otherStates
  mem_iff v := List.mem_mergeSort.trans mem_otherStates
  sorted := by
    refine List.Pairwise.imp (fun le => of_decide_eq_true le) (List.pairwise_mergeSort ?_ ?_ _)
    · intro u v w
      simp only [decide_eq_true_eq]
      omega
    · intro u v
      simp only [Bool.or_eq_true, decide_eq_true_eq]
      omega

theorem Faithful.mem_linkedTo_iff (h : a.Faithful s run) {order : List Nat}
    (all : a.Enumerates order) :
    u ∈ a.linkedTo order v ↔ u < a.states.size ∧ (a.state u).link? = some v := by
  rw [mem_linkedTo, all.mem_iff]
  refine ⟨fun ⟨⟨_, hu⟩, link⟩ => ⟨hu, link⟩, fun ⟨hu, link⟩ => ⟨⟨?_, hu⟩, link⟩⟩
  rintro rfl
  simp [(h.describes 0 hu).link_nil h.run_zero] at link

/-- The runs of a state end where they start the sequence and where those of the states that link
to it end, and at no place for two of these reasons. -/
theorem Faithful.endPositions_perm (h : a.Faithful s run) {order : List Nat}
    (all : a.Enumerates order) (hv : v < a.states.size) (ne : run v ≠ []) :
    (endPositions s (run v)).Perm (startPositions s (run v) ++
      (a.linkedTo order v).flatMap fun u => endPositions s (run u)) := by
  refine (List.perm_ext_iff_of_nodup nodup_endPositions ?_).2 fun i => ?_
  · refine List.nodup_append.2 ⟨nodup_startPositions, ?_, ?_⟩
    · refine List.nodup_flatMap.2 ⟨fun u _ => nodup_endPositions, ?_⟩
      refine (all.nodup.filter _).imp_of_mem fun {u w} hu hw other i mem_u mem_w => other ?_
      obtain ⟨hu, link_u⟩ := (h.mem_linkedTo_iff all).1 hu
      obtain ⟨hw, link_w⟩ := (h.mem_linkedTo_iff all).1 hw
      exact h.eq_of_endsAt hu hw link_u link_w (mem_endPositions.1 mem_u)
        (mem_endPositions.1 mem_w)
    · rintro i at_start _ mem rfl
      obtain ⟨u, hu, mem⟩ := List.mem_flatMap.1 mem
      obtain ⟨hu, link⟩ := (h.mem_linkedTo_iff all).1 hu
      have := (mem_endPositions.1 mem).length_le
      have := (h.link_spec hu link).2.2.1
      have := ((mem_startPositions ne).1 at_start).2
      omega
  · rw [mem_endPositions, h.endsAt_iff hv, List.mem_append, mem_startPositions ne,
      List.mem_flatMap]
    simp only [h.mem_linkedTo_iff all, mem_endPositions, and_assoc]

theorem Faithful.total_eq (h : a.Faithful s run) {order : List Nat} (all : a.Enumerates order)
    (hv : v < a.states.size) (ne : v ≠ 0) :
    total s run v =
      ownCount s (run v) + ((a.linkedTo order v).map (total s run)).sum := by
  have ne_run := h.run_ne_nil hv ne
  rw [total, (h.endPositions_perm all hv ne_run).length_eq, List.length_append,
    length_startPositions ne_run, List.length_flatMap]
  rfl

/-- The automata differ in nothing but the counts of their states. -/
structure SameShape (a b : SuffixAutomaton) : Prop where
  size : b.states.size = a.states.size
  last : b.last = a.last
  sequence : b.sequence = a.sequence
  state : ∀ v, b.state v = { a.state v with count := (b.state v).count }

theorem sameShape_passCount (shape : a.SameShape b) (h : a.Faithful s run)
    (hv : v < a.states.size) : a.SameShape (b.passCount v) := by
  have link_eq : (b.state v).link? = (a.state v).link? := by rw [shape.state v]
  rw [passCount, link_eq]
  split
  · rename_i t link
    have ht : t < b.states.size := shape.size ▸ (h.link_spec hv link).1
    refine ⟨(size_modify ..).trans shape.size, shape.last, shape.sequence, fun u => ?_⟩
    rw [state_modify ht]
    split
    · rw [shape.state u]
    · exact shape.state u
  · exact shape

theorem count_passCount (shape : a.SameShape b) (h : a.Faithful s run)
    (hv : v < a.states.size) (u : Nat) :
    ((b.passCount v).state u).count =
      (b.state u).count + if (a.state v).link? = some u then (b.state v).count else 0 := by
  have link_eq : (b.state v).link? = (a.state v).link? := by rw [shape.state v]
  rw [passCount, link_eq]
  split
  · rename_i t link
    have ht : t < b.states.size := shape.size ▸ (h.link_spec hv link).1
    rw [state_modify ht, link]
    by_cases eq : u = t
    · simp [eq]
    · simp [eq, Ne.symm eq]
  · rename_i none
    simp [none]

/-- What is left to do sums up what is missing: `done` has passed on its counts, and `todo`
comes after it. -/
theorem Faithful.foldl_passCount (h : a.Faithful s run) (done todo : List Nat)
    (all : a.Enumerates (done ++ todo)) (shape : a.SameShape b)
    (counts : ∀ v < a.states.size, v ≠ 0 → (b.state v).count =
      ownCount s (run v) + ((a.linkedTo done v).map (total s run)).sum) :
    a.SameShape (todo.foldl passCount b) ∧
      ∀ v < a.states.size, v ≠ 0 → ((todo.foldl passCount b).state v).count = total s run v := by
  induction todo generalizing done b with
  | nil =>
    refine ⟨shape, fun v hv ne => (counts v hv ne).trans ?_⟩
    rw [List.append_nil] at all
    exact (h.total_eq all hv ne).symm
  | cons v todo ih =>
    obtain ⟨ne, hv⟩ := (all.mem_iff v).1 (by simp)
    -- the states that link to `v` have longer runs, so they come before it
    have before : a.linkedTo (done ++ v :: todo) v = a.linkedTo done v := by
      rw [linkedTo, List.filter_append, ← linkedTo]
      refine (congrArg _ (List.filter_eq_nil_iff.2 fun u mem link => ?_)).trans
        (List.append_nil _)
      have hu := ((all.mem_iff u).1 (by simp [mem])).2
      have longer := (h.link_spec hu (by simpa using link)).2.2.1
      rw [← (h.describes u hu).length, ← (h.describes v hv).length] at longer
      rcases List.mem_cons.1 mem with rfl | later
      · omega
      · have := List.rel_of_pairwise_cons (List.pairwise_append.1 all.sorted).2.1 later
        omega
    have full : (b.state v).count = total s run v := by
      rw [counts v hv ne, h.total_eq all hv ne, before]
    refine ih (done ++ [v]) (by simpa using all) (sameShape_passCount shape h hv) ?_
    intro u hu ne_u
    rw [count_passCount shape h hv, counts u hu ne_u, full, linkedTo, linkedTo,
      List.filter_append, List.map_append, List.sum_append, Nat.add_assoc]
    congr 2
    by_cases link : (a.state v).link? = some u <;> simp [link]

theorem SameShape.faithful (shape : a.SameShape b) (h : a.Faithful s run) :
    b.Faithful s run where
  sequence := shape.sequence ▸ h.sequence
  length_lt := shape.size ▸ h.length_lt
  last_lt := by rw [shape.size, shape.last]; exact h.last_lt
  run_last := shape.last ▸ h.run_last
  run_zero := h.run_zero
  injective := shape.size ▸ h.injective
  exists_state := shape.size ▸ h.exists_state
  describes v hv := by
    rw [shape.size] at hv ⊢
    rw [shape.state v]
    obtain ⟨longest, length, endsAt, first, sorted, target, isSome, nil, link⟩ := h.describes v hv
    exact ⟨longest, length, endsAt, first, sorted, target, isSome, nil, link⟩

theorem Faithful.sumCounts (h : a.Faithful s run) (own : a.CountsOwn s run) :
    a.sumCounts.Faithful s run ∧ a.sumCounts.CountsEnds s run := by
  obtain ⟨shape, counts⟩ := h.foldl_passCount [] a.byLength enumerates_byLength
    ⟨rfl, rfl, rfl, fun _ => rfl⟩ fun v hv _ => by simpa [linkedTo] using own v hv
  exact ⟨shape.faithful h, fun v hv => counts v (shape.size ▸ hv)⟩

/-- The finished automaton of a sequence: its states are the classes of runs, with the counts of
the places where they end. -/
theorem exists_faithful_sumCounts (s : List Nat) :
    ∃ run, (s.foldl extend {}).sumCounts.Faithful s run ∧
      (s.foldl extend {}).sumCounts.CountsEnds s run := by
  obtain ⟨run, h, own⟩ := exists_faithful s
  exact ⟨run, h.sumCounts own⟩

end SuffixAutomaton

end RulesText
