import RulesText.Proofs.Gap.EndPositions
import RulesText.Proofs.Gap.SuffixStates

/-!
# The classes of a suffix automaton

The states of a suffix automaton are the classes of runs that end at the same places. Each state
is known by the longest run of its class, and what it stores is determined by that run.

## Main definitions

* `IsOldEnd`: the longest end of a longer sequence that has occurred before.
* `SuffixState.Describes`: a state stores what belongs to a run.
* `SuffixAutomaton.Faithful`: the states are the classes of a sequence.
-/

namespace RulesText

/-! ## One more element -/

/-- The run `r` is the longest end of `s ++ [x]` that occurs in `s`. -/
structure IsOldEnd (s : List Nat) (x : Nat) (r : List Nat) : Prop where
  isInfix : r <:+: s
  isSuffix : r <:+ s ++ [x]
  isSuffix_of : ∀ u, u <:+: s → u <:+ s ++ [x] → u <:+ r

section

variable {s r u w : List Nat} {x : Nat}

/-- Where the new place cuts a class in two, the runs that end there fall into the class of the
longest old end. -/
theorem IsOldEnd.of_split (h : IsOldEnd s x r) (occurs : w <:+: s) (same : SameEnds s w u)
    (ends : w <:+ s ++ [x]) (not : ¬u <:+ s ++ [x]) :
    r <:+ u ∧ SameEnds s r u ∧ SameEnds (s ++ [x]) w r := by
  have inside := h.isSuffix_of w occurs ends
  obtain ⟨i, here⟩ := isInfix_iff_endsAt.1 h.isInfix
  have there := (same i).1 (here.of_isSuffix inside)
  have long : r <:+ u := by
    rcases Nat.le_total r.length u.length with le | le
    · exact here.isSuffix there le
    · exact absurd ((there.isSuffix here le).trans h.isSuffix) not
  have class_r := same.of_between inside long
  refine ⟨long, class_r, (same.trans class_r.symm).append_singleton ?_⟩
  exact ⟨fun _ => h.isSuffix, fun _ => ends⟩

/-- A run that is new ends at the last place only. -/
theorem sameEnds_of_new (new : ¬w <:+: s) (ends : w <:+ s ++ [x]) :
    SameEnds (s ++ [x]) w (s ++ [x]) := by
  intro i
  have notOld : ¬EndsAt s w i := fun h => new (isInfix_iff_endsAt.2 ⟨i, h⟩)
  have tooLong : ¬EndsAt s (s ++ [x]) i := fun h => by
    have := h.length_le.trans h.1
    simp only [List.length_append, List.length_singleton] at this
    omega
  simp [endsAt_append_singleton, notOld, tooLong, ends]

theorem isInfix_append_singleton (h : w <:+: s ++ [x]) : w <:+: s ∨ w <:+ s ++ [x] := by
  obtain ⟨i, ends⟩ := isInfix_iff_endsAt.1 h
  rcases endsAt_append_singleton.1 ends with old | ⟨-, last⟩
  · exact .inl (isInfix_iff_endsAt.2 ⟨i, old⟩)
  · exact .inr last

theorem isInfix_append (h : w <:+: s) : w <:+: s ++ [x] :=
  h.trans (List.prefix_append s [x]).isInfix

/-- What follows runs of one class was there before the last element. -/
theorem SameEnds.snoc_append (same : SameEnds s u w) (x y : Nat) :
    SameEnds (s ++ [x]) (u ++ [y]) (w ++ [y]) := by
  intro i
  cases i with
  | zero => simp [endsAt_zero]
  | succ i =>
    rw [endsAt_snoc, endsAt_snoc]
    by_cases le : i ≤ s.length
    · rw [endsAt_append_of_le le, endsAt_append_of_le le, same i]
    · have : (s ++ [x])[i]? = none := by simp; omega
      simp [this]

theorem snoc_isInfix_append (same : SameEnds s u w) {y : Nat} (h : u ++ [y] <:+: s ++ [x]) :
    w ++ [y] <:+: s ++ [x] :=
  ((same.snoc_append x y).isInfix_iff).1 h

end

/-- Where a condition that holds of an element holds of all before it, the elements at the start
for which it holds are all of them. -/
theorem takeWhile_eq_filter {α : Type} {p : α → Bool} {l : List α}
    (h : l.Pairwise fun a b => p b → p a) : l.takeWhile p = l.filter p := by
  induction l with
  | nil => rfl
  | cons a l ih =>
    obtain ⟨first, rest⟩ := List.pairwise_cons.1 h
    by_cases pa : p a
    · simp [pa, ih rest]
    · have none : ∀ b ∈ l, ¬p b := fun b hb pb => pa (first b hb pb)
      simp [pa, List.filter_eq_nil_iff.2 none]

theorem drop_length_filter {α : Type} {p : α → Bool} {l : List α}
    (h : l.Pairwise fun a b => p b → p a) : l.drop (l.filter p).length = l.filter (!p ·) := by
  induction l with
  | nil => rfl
  | cons a l ih =>
    obtain ⟨first, rest⟩ := List.pairwise_cons.1 h
    by_cases pa : p a
    · simp [pa, ih rest]
    · have none : ∀ b ∈ l, ¬p b := fun b hb pb => pa (first b hb pb)
      have all : l.filter (!p ·) = l := List.filter_eq_self.2 fun b hb => by simpa using none b hb
      simp [pa, List.filter_eq_nil_iff.2 none, all]

/-! ## What states store -/

/-- The state `q` of an automaton with `size` states stores what belongs to the run `w`. The
longest run of each state `v` is `run v`. -/
structure SuffixState.Describes (s : List Nat) (size : Nat) (run : Nat → List Nat)
    (w : List Nat) (q : SuffixState) : Prop where
  isLongest : IsLongest s w
  length : q.length = w.length
  endsAt : w ≠ [] → EndsAt s w (q.endPos + 1)
  first : w ≠ [] → ∀ i, EndsAt s w i → q.endPos + 1 ≤ i
  sorted : q.Sorted
  target : ∀ y t, q.target? y = some t →
    t < size ∧ w ++ [y] <:+: s ∧ SameEnds s (w ++ [y]) (run t)
  isSome_target : ∀ y, w ++ [y] <:+: s → (q.target? y).isSome
  link_nil : w = [] → q.link? = none
  /-- The link leads to the longest end that ends at further places. -/
  link : w ≠ [] → ∃ u < size, q.link? = some u ∧ run u <:+ w ∧ (run u).length < w.length ∧
    ∀ t, t <:+ w → (run u).length < t.length → SameEnds s t w

namespace SuffixAutomaton

/-- The states of the automaton are the classes of runs in `s`. The longest run of each state
`v` is `run v`. -/
structure Faithful (a : SuffixAutomaton) (s : List Nat) (run : Nat → List Nat) : Prop where
  sequence : a.sequence.toList = s
  length_lt : s.length < a.states.size
  last_lt : a.last < a.states.size
  run_last : run a.last = s
  run_zero : run 0 = []
  injective : ∀ v < a.states.size, ∀ u < a.states.size, run v = run u → v = u
  describes : ∀ v < a.states.size, (a.state v).Describes s a.states.size run (run v)
  exists_state : ∀ w, w <:+: s → ∃ v < a.states.size, SameEnds s w (run v)

namespace Faithful

variable {a : SuffixAutomaton} {s : List Nat} {run : Nat → List Nat} {v u x : Nat}

theorem size_pos (h : a.Faithful s run) : 0 < a.states.size :=
  (Nat.zero_le _).trans_lt h.length_lt

theorem run_ne_nil (h : a.Faithful s run) (hv : v < a.states.size) (ne : v ≠ 0) :
    run v ≠ [] :=
  fun eq => ne (h.injective v hv 0 h.size_pos (eq.trans h.run_zero.symm))

/-- What a link leads to. -/
theorem link_spec (h : a.Faithful s run) (hv : v < a.states.size) {t : Nat}
    (link : (a.state v).link? = some t) :
    t < a.states.size ∧ run t <:+ run v ∧ (run t).length < (run v).length ∧
      ∀ w, w <:+ run v → (run t).length < w.length → SameEnds s w (run v) := by
  have ne : run v ≠ [] := fun nil => by simp [(h.describes v hv).link_nil nil] at link
  obtain ⟨u, hu, eq, rest⟩ := (h.describes v hv).link ne
  obtain rfl := Option.some.inj (eq.symm.trans link)
  exact ⟨hu, rest⟩

/-- Two states whose longest runs are of one class are the same. -/
theorem eq_of_sameEnds (h : a.Faithful s run) (hu : u < a.states.size) (hv : v < a.states.size)
    (same : SameEnds s (run u) (run v)) : u = v :=
  h.injective u hu v hv
    ((h.describes u hu).isLongest.eq_of_sameEnds (h.describes v hv).isLongest same)

/-- The runs of a state are longer than that of its link. -/
theorem length_lt_of_sameEnds (h : a.Faithful s run) (hv : v < a.states.size) {t : Nat}
    (link : (a.state v).link? = some t) {w : List Nat} (same : SameEnds s w (run v)) :
    (run t).length < w.length := by
  obtain ⟨ht, inside, shorter, -⟩ := h.link_spec hv link
  by_contra le
  -- a run that is no longer than the link's belongs to the class of the link
  have suffix := (h.describes v hv).isLongest.isSuffix same
  have between := List.suffix_of_suffix_length_le suffix inside (Nat.le_of_not_lt le)
  have := h.eq_of_sameEnds ht hv (same.of_between between inside)
  simp [this] at shorter

/-- A run that is an end of the longest run of a state belongs to the class of the state, or it
is an end of the run of the state's link. -/
theorem isSuffix_link (h : a.Faithful s run) (hv : v < a.states.size) (hu : u < a.states.size)
    {t : Nat} (link : (a.state v).link? = some t) (suffix : run u <:+ run v) (ne : u ≠ v) :
    run u <:+ run t := by
  obtain ⟨-, inside, -, class_v⟩ := h.link_spec hv link
  rcases Nat.lt_or_ge (run t).length (run u).length with lt | le
  · exact absurd (h.eq_of_sameEnds hu hv (class_v _ suffix lt)) ne
  · exact List.suffix_of_suffix_length_le suffix inside le

/-- Links lead through all states whose runs are ends of the first one, the longer ones first. -/
theorem linkPath_spec (h : a.Faithful s run) {fuel : Nat} (hv : v < a.states.size)
    (enough : (run v).length < fuel) :
    (∀ u, u ∈ a.linkPath fuel v ↔ u < a.states.size ∧ run u <:+ run v) ∧
    (a.linkPath fuel v).Pairwise fun u w => (run w).length < (run u).length := by
  induction fuel generalizing v with
  | zero => omega
  | succ fuel ih =>
    by_cases empty : run v = []
    · have path : a.linkPath (fuel + 1) v = [v] := by
        simp [linkPath, (h.describes v hv).link_nil empty]
      rw [path]
      refine ⟨fun u => ?_, by simp⟩
      simp only [List.mem_singleton, empty, List.suffix_nil]
      exact ⟨fun eq => eq ▸ ⟨hv, empty⟩,
        fun ⟨hu, eq⟩ => h.injective u hu v hv (eq.trans empty.symm)⟩
    · obtain ⟨t, ht, link, suffix, shorter, -⟩ := (h.describes v hv).link empty
      have path : a.linkPath (fuel + 1) v = v :: a.linkPath fuel t := by
        simp [linkPath, link]
      obtain ⟨mem, sorted⟩ := ih ht (by omega)
      rw [path]
      refine ⟨fun u => ?_, List.pairwise_cons.2 ⟨fun u hu => ?_, sorted⟩⟩
      · rw [List.mem_cons, mem]
        constructor
        · rintro (rfl | ⟨hu, inside⟩)
          · exact ⟨hv, List.suffix_rfl⟩
          · exact ⟨hu, inside.trans suffix⟩
        · rintro ⟨hu, inside⟩
          by_cases eq : u = v
          · exact .inl eq
          · exact .inr ⟨hu, h.isSuffix_link hv hu link inside eq⟩
      · exact ((mem u).1 hu).2.length_le.trans_lt shorter

theorem mem_suffixes (h : a.Faithful s run) :
    v ∈ a.suffixes a.last ↔ v < a.states.size ∧ run v <:+ s := by
  have := (h.linkPath_spec h.last_lt (h.run_last ▸ h.length_lt)).1 v
  rwa [h.run_last] at this

theorem suffixes_pairwise (h : a.Faithful s run) :
    (a.suffixes a.last).Pairwise fun u w => (run w).length < (run u).length :=
  (h.linkPath_spec h.last_lt (h.run_last ▸ h.length_lt)).2

theorem suffixes_nodup (h : a.Faithful s run) : (a.suffixes a.last).Nodup :=
  h.suffixes_pairwise.imp fun lt eq => by simp [eq] at lt

theorem isSome_target_iff (h : a.Faithful s run) (hv : v < a.states.size) :
    ((a.state v).target? x).isSome ↔ run v ++ [x] <:+: s := by
  refine ⟨fun some => ?_, (h.describes v hv).isSome_target x⟩
  obtain ⟨t, eq⟩ := Option.isSome_iff_exists.1 some
  exact ((h.describes v hv).target x t eq).2.1

theorem isNone_target_iff (h : a.Faithful s run) (hv : v < a.states.size) :
    ((a.state v).target? x).isNone ↔ ¬run v ++ [x] <:+: s := by
  rw [← h.isSome_target_iff hv, Option.isNone_iff_eq_none, Option.not_isSome_iff_eq_none]

end Faithful

end SuffixAutomaton

end RulesText
