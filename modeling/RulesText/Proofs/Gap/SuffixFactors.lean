import RulesText.Proofs.Gap.SuffixCounts

/-!
# The factors of a suffix automaton

From its first state an automaton can be walked along exactly the factors of its sequence, and
the state where a walk ends tells where the factor ends and how often.

## Main definitions

* `SuffixAutomaton.walk?`: the state that a run leads to.
* `SuffixAutomaton.Recognizes`: what an automaton tells about the factors of a sequence.
-/

namespace RulesText.SuffixAutomaton

/-- The state that a run leads to from state `v`. -/
def walk? (a : SuffixAutomaton) : (v : Nat) → (w : List Nat) → Option Nat
  | v, [] => some v
  | v, x :: w => ((a.state v).target? x).bind fun t => a.walk? t w

/-- The automaton tells which runs are factors of `s`, where they end and how often. -/
structure Recognizes (a : SuffixAutomaton) (s : List Nat) : Prop where
  sequence : a.sequence.toList = s
  isSome_walk? : ∀ w, (a.walk? 0 w).isSome ↔ w <:+: s
  count : ∀ w v, w ≠ [] → a.walk? 0 w = some v →
    (a.state v).count = (endPositions s w).length
  /-- The factors of a state are longer than those of its link and at most as long as its
  longest one. -/
  length : ∀ w v, w ≠ [] → a.walk? 0 w = some v →
    ∃ u, (a.state v).link? = some u ∧ (a.state u).length < w.length ∧
      w.length ≤ (a.state v).length
  /-- The longest factor of a state fits in front of its end position. -/
  bounds : ∀ w v, w ≠ [] → a.walk? 0 w = some v →
    (a.state v).endPos < s.length ∧ (a.state v).length ≤ (a.state v).endPos + 1
  /-- The factors of a state are ends of what stands at its end position. -/
  isSuffix : ∀ w v, w ≠ [] → a.walk? 0 w = some v →
    w <:+ (s.take ((a.state v).endPos + 1)).drop ((a.state v).endPos + 1 - (a.state v).length)
  endPos : ∀ w v, w ≠ [] → a.walk? 0 w = some v →
    (endPositions s w).head? = some (a.state v).endPos
  walk?_eq_iff : ∀ u w, u ≠ [] → w ≠ [] → u <:+: s → w <:+: s →
    (a.walk? 0 u = a.walk? 0 w ↔ endPositions s u = endPositions s w)

variable {a : SuffixAutomaton} {s w : List Nat} {run : Nat → List Nat} {v : Nat}

namespace Faithful

theorem walk?_eq_some (h : a.Faithful s run) (hv : v < a.states.size) {t : Nat}
    (occurs : run v <:+: s) (walk : a.walk? v w = some t) :
    t < a.states.size ∧ run v ++ w <:+: s ∧ SameEnds s (run v ++ w) (run t) := by
  induction w generalizing v with
  | nil =>
    obtain rfl := Option.some.inj walk
    rw [List.append_nil]
    exact ⟨hv, occurs, .refl s _⟩
  | cons x w ih =>
    obtain ⟨u, target, walk⟩ := Option.bind_eq_some_iff.1 walk
    obtain ⟨hu, -, same⟩ := (h.describes v hv).target x u target
    obtain ⟨ht, behind, class_t⟩ := ih hu (h.describes u hu).isLongest.isInfix walk
    have shift : SameEnds s (run v ++ x :: w) (run u ++ w) := by simpa using same.append w
    exact ⟨ht, shift.isInfix_iff.2 behind, shift.trans class_t⟩

theorem isSome_walk? (h : a.Faithful s run) (hv : v < a.states.size)
    (occurs : run v ++ w <:+: s) : (a.walk? v w).isSome := by
  induction w generalizing v with
  | nil => rfl
  | cons x w ih =>
    have front : run v ++ [x] <:+: s := by
      refine List.IsInfix.trans ⟨[], w, ?_⟩ occurs
      simp
    obtain ⟨u, target⟩ := Option.isSome_iff_exists.1 ((h.describes v hv).isSome_target x front)
    obtain ⟨hu, -, same⟩ := (h.describes v hv).target x u target
    have shift : SameEnds s (run v ++ x :: w) (run u ++ w) := by simpa using same.append w
    rw [walk?, target]
    exact ih hu (shift.isInfix_iff.1 occurs)

/-- A walk from the first state leads to the class of the run. -/
theorem class_of_walk? (h : a.Faithful s run) (walk : a.walk? 0 w = some v) :
    v < a.states.size ∧ w <:+: s ∧ SameEnds s w (run v) := by
  have := h.walk?_eq_some h.size_pos (h.describes 0 h.size_pos).isLongest.isInfix walk
  rwa [h.run_zero, List.nil_append] at this

theorem ne_nil_of_walk? (h : a.Faithful s run) (ne : w ≠ []) (walk : a.walk? 0 w = some v) :
    run v ≠ [] := fun nil => by
  obtain ⟨hv, -, same⟩ := h.class_of_walk? walk
  have := ((h.describes v hv).isLongest.isSuffix same).length_le
  simp [nil, ne] at this

/-- What stands at the end position of a state is its longest run. -/
theorem slice_eq (h : a.Faithful s run) (hv : v < a.states.size) (ne : run v ≠ []) :
    (s.take ((a.state v).endPos + 1)).drop ((a.state v).endPos + 1 - (a.state v).length) =
      run v := by
  obtain ⟨le, suffix⟩ := (h.describes v hv).endsAt ne
  have := List.suffix_iff_eq_drop.1 suffix
  rw [List.length_take, Nat.min_eq_left le] at this
  rw [(h.describes v hv).length, ← this]

theorem recognizes (h : a.Faithful s run) (counts : a.CountsEnds s run) :
    a.Recognizes s where
  sequence := h.sequence
  isSome_walk? w := by
    refine ⟨fun walk => ?_, fun occurs => h.isSome_walk? h.size_pos ?_⟩
    · obtain ⟨v, walk⟩ := Option.isSome_iff_exists.1 walk
      exact (h.class_of_walk? walk).2.1
    · rwa [h.run_zero]
  count w v ne walk := by
    obtain ⟨hv, -, same⟩ := h.class_of_walk? walk
    have ne_v := h.ne_nil_of_walk? ne walk
    have not_zero : v ≠ 0 := fun eq => ne_v (eq ▸ h.run_zero)
    rw [counts v hv not_zero, total, (endPositions_eq_iff ne ne_v).2 same]
  length w v ne walk := by
    obtain ⟨hv, -, same⟩ := h.class_of_walk? walk
    have suffix := (h.describes v hv).isLongest.isSuffix same
    obtain ⟨u, hu, link, -⟩ := (h.describes v hv).link (h.ne_nil_of_walk? ne walk)
    refine ⟨u, link, ?_, (h.describes v hv).length ▸ suffix.length_le⟩
    rw [(h.describes u hu).length]
    exact h.length_lt_of_sameEnds hv link same
  bounds w v ne walk := by
    obtain ⟨hv, -, -⟩ := h.class_of_walk? walk
    have ends := (h.describes v hv).endsAt (h.ne_nil_of_walk? ne walk)
    rw [(h.describes v hv).length]
    exact ⟨ends.1, ends.length_le⟩
  isSuffix w v ne walk := by
    obtain ⟨hv, -, same⟩ := h.class_of_walk? walk
    rw [h.slice_eq hv (h.ne_nil_of_walk? ne walk)]
    exact (h.describes v hv).isLongest.isSuffix same
  endPos w v ne walk := by
    obtain ⟨hv, -, same⟩ := h.class_of_walk? walk
    have ne_v := h.ne_nil_of_walk? ne walk
    exact head?_endPositions ((same _).2 ((h.describes v hv).endsAt ne_v))
      fun i ends => (h.describes v hv).first ne_v i ((same i).1 ends)
  walk?_eq_iff u w ne_u ne_w occurs_u occurs_w := by
    obtain ⟨v, walk_u⟩ := Option.isSome_iff_exists.1
      (h.isSome_walk? h.size_pos (w := u) (by rwa [h.run_zero]))
    obtain ⟨t, walk_w⟩ := Option.isSome_iff_exists.1
      (h.isSome_walk? h.size_pos (w := w) (by rwa [h.run_zero]))
    obtain ⟨hv, -, same_u⟩ := h.class_of_walk? walk_u
    obtain ⟨ht, -, same_w⟩ := h.class_of_walk? walk_w
    rw [endPositions_eq_iff ne_u ne_w, walk_u, walk_w, Option.some.injEq]
    refine ⟨fun eq => same_u.trans (eq ▸ same_w.symm), fun same => ?_⟩
    exact h.eq_of_sameEnds hv ht ((same_u.symm.trans same).trans same_w)

end Faithful

/-- The automaton of several sequences tells the factors of their concatenation: which runs they
are, where they end, and how often. -/
theorem ofSequences_recognizes (sequences : List (List Nat)) :
    (ofSequences sequences).Recognizes (concatenate sequences) := by
  obtain ⟨run, h, counts⟩ := exists_faithful_sumCounts (concatenate sequences)
  exact h.recognizes counts

end RulesText.SuffixAutomaton
