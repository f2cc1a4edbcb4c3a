import RulesText.Proofs.Gap.SuffixClasses

/-!
# Extending a suffix automaton

One more element keeps the states of an automaton the classes of its sequence. The runs that are
new belong to the new last state. At most one class is cut in two, that of the longest end that
has occurred before; its shorter runs get a state of their own.

## Main definitions

* `SuffixAutomaton.lacking`, `SuffixAutomaton.leading`: the ends without and with the new element
  behind them.
* `SuffixAutomaton.grown`: an automaton before the link of its new state is set.
-/

namespace RulesText

variable {s r w : List Nat} {x n : Nat} {run run' : Nat → List Nat} {q q' : SuffixState}

/-! ## States of the longer sequence -/

namespace SuffixState.Describes

/-- A target that has not been cut keeps its class. -/
theorem target_append (h : q.Describes s n run w) (old : IsOldEnd s x r) {y t : Nat}
    (longest : IsLongest s (run t)) (target : q.target? y = some t)
    (whole : ¬(w ++ [y] <:+ s ++ [x] ∧ ¬run t <:+ s ++ [x] ∧ SameEnds s r (run t))) :
    w ++ [y] <:+: s ++ [x] ∧ SameEnds (s ++ [x]) (w ++ [y]) (run t) := by
  obtain ⟨-, occurs, same⟩ := h.target y t target
  refine ⟨isInfix_append occurs, same.append_singleton ?_⟩
  have suffix := longest.isSuffix same
  refine ⟨fun ends => ?_, fun ends => suffix.trans ends⟩
  by_contra not
  exact whole ⟨ends, not, (old.of_split occurs same ends not).2.1⟩

/-- The link of a class that is not cut. -/
theorem link_append (h : q.Describes s n run w) (old : IsOldEnd s x r)
    (whole : w <:+ s ++ [x] ∨ ¬SameEnds s r w) (ne : w ≠ []) :
    ∃ u < n, q.link? = some u ∧ run u <:+ w ∧ (run u).length < w.length ∧
      ∀ t, t <:+ w → (run u).length < t.length → SameEnds (s ++ [x]) t w := by
  obtain ⟨u, hu, eq, suffix, shorter, class_w⟩ := h.link ne
  refine ⟨u, hu, eq, suffix, shorter, fun t inside longer => ?_⟩
  have same := class_w t inside longer
  refine same.append_singleton ⟨fun ends => ?_, fun ends => inside.trans ends⟩
  by_contra not
  have cut := old.of_split (inside.isInfix.trans h.isLongest.isInfix) same ends not
  exact whole.elim not fun other => other cut.2.1

/-- A state still describes its run if its link and its targets are those of the longer
sequence. -/
theorem append (h : q.Describes s n run w) (x : Nat) {n' : Nat} (length : q'.length = q.length)
    (endPos : q'.endPos = q.endPos) (sorted : q'.Sorted)
    (target : ∀ y t, q'.target? y = some t →
      t < n' ∧ w ++ [y] <:+: s ++ [x] ∧ SameEnds (s ++ [x]) (w ++ [y]) (run' t))
    (isSome_target : ∀ y, w ++ [y] <:+: s ++ [x] → (q'.target? y).isSome)
    (link_nil : w = [] → q'.link? = none)
    (link : w ≠ [] → ∃ u < n', q'.link? = some u ∧ run' u <:+ w ∧ (run' u).length < w.length ∧
      ∀ t, t <:+ w → (run' u).length < t.length → SameEnds (s ++ [x]) t w) :
    q'.Describes (s ++ [x]) n' run' w where
  isLongest := h.isLongest.append_singleton
  length := length.trans h.length
  endsAt ne := endPos ▸ endsAt_append_singleton.2 (.inl (h.endsAt ne))
  first ne i ends := by
    rw [endPos]
    rcases endsAt_append_singleton.1 ends with here | ⟨rfl, -⟩
    · exact h.first ne i here
    · have := (h.endsAt ne).1
      omega
  sorted := sorted
  target := target
  isSome_target := isSome_target
  link_nil := link_nil
  link := link

/-- The new last state describes the whole sequence. -/
theorem whole (old : IsOldEnd s x r) {u : Nat} (hu : u < n) (eq : run u = r) :
    ({ length := s.length + 1, count := 1, endPos := s.length, link? := some u } :
      SuffixState).Describes (s ++ [x]) n run (s ++ [x]) where
  isLongest := .of_isPrefix List.prefix_rfl
  length := by simp
  endsAt _ := by simpa using endsAt_length.2 (List.suffix_rfl (l := s ++ [x]))
  first _ i ends := by simpa using ends.length_le
  sorted := List.Pairwise.nil
  target y t none := by simp [target?] at none
  isSome_target y longer := by simpa using longer.length_le
  link_nil empty := by simp at empty
  link _ := by
    refine ⟨u, hu, rfl, eq ▸ old.isSuffix, ?_, fun t ends longer => ?_⟩
    · simpa [eq] using Nat.lt_succ_of_le old.isInfix.length_le
    · refine sameEnds_of_new (fun occurs => ?_) ends
      have := (old.isSuffix_of t occurs ends).length_le
      rw [eq] at longer
      omega

end SuffixState.Describes

namespace SuffixAutomaton

variable {a : SuffixAutomaton} {v u p : Nat} {above : List Nat}

/-! ## Ends and the new element -/

/-- The states of the ends that have never had `x` behind them. -/
def lacking (a : SuffixAutomaton) (x : Nat) : List Nat :=
  (a.suffixes a.last).filter fun v => ((a.state v).target? x).isNone

/-- The states of the ends that have had `x` behind them. -/
def leading (a : SuffixAutomaton) (x : Nat) : List Nat :=
  (a.suffixes a.last).filter fun v => ((a.state v).target? x).isSome

/-- The automaton with its new last state, which has no link yet. -/
def grown (a : SuffixAutomaton) (x : Nat) : SuffixAutomaton :=
  (a.append x).setTargets (a.lacking x) x a.states.size

@[simp] theorem size_grown (a : SuffixAutomaton) (x : Nat) :
    (a.grown x).states.size = a.states.size + 1 := by
  simp [grown, append]

namespace Faithful

theorem mem_lacking (h : a.Faithful s run) :
    v ∈ a.lacking x ↔ v < a.states.size ∧ run v <:+ s ∧ ¬run v ++ [x] <:+: s := by
  rw [lacking, List.mem_filter, h.mem_suffixes, and_assoc]
  exact and_congr_right fun hv => and_congr_right fun _ => h.isNone_target_iff hv

theorem mem_leading (h : a.Faithful s run) :
    v ∈ a.leading x ↔ v < a.states.size ∧ run v <:+ s ∧ run v ++ [x] <:+: s := by
  rw [leading, List.mem_filter, h.mem_suffixes, and_assoc]
  exact and_congr_right fun hv => and_congr_right fun _ => h.isSome_target_iff hv

/-- Of the ends along the path, those without `x` behind them come first. -/
theorem lacking_first (h : a.Faithful s run) :
    (a.suffixes a.last).Pairwise fun u w =>
      ((a.state w).target? x).isNone → ((a.state u).target? x).isNone := by
  refine h.suffixes_pairwise.imp_of_mem fun {u w} hu hw shorter none => ?_
  obtain ⟨hu, suffix_u⟩ := h.mem_suffixes.1 hu
  obtain ⟨hw, suffix_w⟩ := h.mem_suffixes.1 hw
  rw [h.isNone_target_iff hw] at none
  rw [h.isNone_target_iff hu]
  have inside := List.suffix_of_suffix_length_le suffix_w suffix_u shorter.le
  exact fun occurs => none ((isSuffix_append_singleton.2 ⟨rfl, inside⟩).isInfix.trans occurs)

theorem leading_pairwise (h : a.Faithful s run) :
    (a.leading x).Pairwise fun u w => (run w).length < (run u).length :=
  h.suffixes_pairwise.filter _

/-- An end with `x` behind it elsewhere is an end of the run of a leading state. -/
theorem exists_leading (h : a.Faithful s run) {e : List Nat} (occurs : e ++ [x] <:+: s)
    (ends : e <:+ s) : ∃ v ∈ a.leading x, e <:+ run v := by
  obtain ⟨v, hv, same⟩ := h.exists_state e ends.isInfix
  have suffix : run v <:+ s := endsAt_length.1 ((same _).1 (endsAt_length.2 ends))
  have behind : run v ++ [x] <:+: s := (same.snoc x).isInfix_iff.1 occurs
  exact ⟨v, h.mem_leading.2 ⟨hv, suffix, behind⟩, (h.describes v hv).isLongest.isSuffix same⟩

theorem isOldEnd_nil (h : a.Faithful s run) (empty : a.leading x = []) : IsOldEnd s x [] where
  isInfix := List.nil_infix
  isSuffix := List.nil_suffix
  isSuffix_of u occurs ends := by
    rcases List.eq_nil_or_concat' u with rfl | ⟨e, y, rfl⟩
    · exact List.suffix_rfl
    · obtain ⟨rfl, before⟩ := isSuffix_append_singleton.1 ends
      obtain ⟨v, mem, -⟩ := h.exists_leading occurs before
      simp [empty] at mem

theorem isOldEnd_cons (h : a.Faithful s run) (path : a.leading x = p :: above) :
    IsOldEnd s x (run p ++ [x]) := by
  have mem : p ∈ a.leading x := path ▸ List.mem_cons_self
  obtain ⟨-, suffix, behind⟩ := h.mem_leading.1 mem
  refine ⟨behind, isSuffix_append_singleton.2 ⟨rfl, suffix⟩, fun u occurs ends => ?_⟩
  rcases List.eq_nil_or_concat' u with rfl | ⟨e, y, rfl⟩
  · exact List.nil_suffix
  · obtain ⟨rfl, before⟩ := isSuffix_append_singleton.1 ends
    obtain ⟨v, mem, inside⟩ := h.exists_leading occurs before
    refine isSuffix_append_singleton.2 ⟨rfl, inside.trans ?_⟩
    have sorted := path ▸ h.leading_pairwise (x := y)
    rcases List.mem_cons.1 (path ▸ mem) with rfl | later
    · exact List.suffix_rfl
    · have shorter := List.rel_of_pairwise_cons sorted later
      exact List.suffix_of_suffix_length_le (h.mem_leading.1 mem).2.1 suffix shorter.le

/-! ## The new last state -/

theorem state_grown (h : a.Faithful s run) :
    (a.grown x).state v =
      if v = a.states.size then
        { length := s.length + 1, count := 1, endPos := s.length }
      else if v ∈ a.lacking x then (a.state v).setTarget x a.states.size
      else a.state v := by
  have inside : ∀ u ∈ a.lacking x, u < (a.append x).states.size := fun u hu => by
    simpa [append] using Nat.lt_succ_of_lt (h.mem_lacking.1 hu).1
  have length : (a.state a.last).length = s.length :=
    (h.describes _ h.last_lt).length.trans (congrArg List.length h.run_last)
  have size : a.sequence.size = s.length := by rw [← h.sequence, Array.length_toList]
  have nodup : (a.lacking x).Nodup := h.suffixes_nodup.filter _
  rw [grown, state_setTargets nodup inside, append, state_push, length, size]
  by_cases eq : v = a.states.size
  · have : v ∉ a.lacking x := fun mem => by
      have := (h.mem_lacking.1 mem).1
      omega
    rw [if_neg this, if_pos eq, if_pos eq]
  · rw [if_neg eq, if_neg eq]

theorem target?_grown (h : a.Faithful s run) (hv : v < a.states.size) (y : Nat) :
    ((a.grown x).state v).target? y =
      if v ∈ a.lacking x ∧ y = x then some a.states.size else (a.state v).target? y := by
  rw [h.state_grown, if_neg hv.ne]
  by_cases mem : v ∈ a.lacking x
  · simp [mem, SuffixState.target?_setTarget]
  · simp [mem]

theorem target?_grown_of_leading (h : a.Faithful s run) (mem : v ∈ a.leading x) :
    ((a.grown x).state v).target? x = (a.state v).target? x := by
  obtain ⟨hv, -, occurs⟩ := h.mem_leading.1 mem
  have : v ∉ a.lacking x := fun mem => (h.mem_lacking.1 mem).2.2 occurs
  rw [h.target?_grown hv, if_neg (fun ⟨mem, _⟩ => this mem)]

theorem sorted_grown (h : a.Faithful s run) (hv : v < a.states.size) :
    ((a.grown x).state v).Sorted := by
  rw [h.state_grown, if_neg hv.ne]
  split
  · exact (h.describes v hv).sorted.setTarget ..
  · exact (h.describes v hv).sorted

/-- The other fields of a state stay. -/
theorem fields_grown (h : a.Faithful s run) (hv : v < a.states.size) :
    ((a.grown x).state v).length = (a.state v).length ∧
    ((a.grown x).state v).link? = (a.state v).link? ∧
    ((a.grown x).state v).endPos = (a.state v).endPos ∧
    ((a.grown x).state v).count = (a.state v).count := by
  rw [h.state_grown, if_neg hv.ne]
  split <;> simp

/-- A target after the new state was made: the new state for runs that are new, or the target
from before. -/
theorem target_grown (h : a.Faithful s run) (hv : v < a.states.size) {y t : Nat}
    (target : ((a.grown x).state v).target? y = some t) :
    (t = a.states.size ∧ run v ++ [y] <:+: s ++ [x] ∧
      SameEnds (s ++ [x]) (run v ++ [y]) (s ++ [x])) ∨
    (a.state v).target? y = some t := by
  rw [h.target?_grown hv] at target
  split at target
  · rename_i new
    obtain ⟨mem, rfl⟩ := new
    obtain ⟨-, suffix, fresh⟩ := h.mem_lacking.1 mem
    have ends : run v ++ [y] <:+ s ++ [y] := isSuffix_append_singleton.2 ⟨rfl, suffix⟩
    exact .inl ⟨(Option.some.inj target).symm, ends.isInfix, sameEnds_of_new fresh ends⟩
  · exact .inr target

theorem isSome_target_grown (h : a.Faithful s run) (hv : v < a.states.size) {y : Nat}
    (occurs : run v ++ [y] <:+: s ++ [x]) : (((a.grown x).state v).target? y).isSome := by
  rw [h.target?_grown hv]
  split
  · rfl
  · rename_i known
    rw [h.isSome_target_iff hv]
    rcases isInfix_append_singleton occurs with before | ends
    · exact before
    · obtain ⟨rfl, suffix⟩ := isSuffix_append_singleton.1 ends
      by_contra fresh
      exact known ⟨h.mem_lacking.2 ⟨hv, suffix, fresh⟩, rfl⟩

end Faithful

end SuffixAutomaton

end RulesText
