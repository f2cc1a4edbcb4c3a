import Mathlib.Logic.Function.Basic
import RulesText.Proofs.Gap.SuffixExtension

/-!
# The construction of a suffix automaton

The automaton of the empty sequence is faithful to it, and every extension keeps an automaton
faithful to its sequence.

## Main definitions

* `SuffixAutomaton.linked`: the outcome of an extension that splits no state.
* `SuffixAutomaton.Cut`: the situation in which an extension splits a state.
* `SuffixAutomaton.divided`: the outcome of an extension that splits a state.
-/

namespace RulesText.SuffixAutomaton

open Function (update update_self update_of_ne)

variable {a : SuffixAutomaton} {s : List Nat} {run : Nat → List Nat} {v u x p q : Nat}

namespace Faithful

/-! ## No class is cut -/

theorem length_run_le (h : a.Faithful s run) (hv : v < a.states.size) :
    (run v).length ≤ s.length :=
  (h.describes v hv).isLongest.isInfix.length_le

theorem update_run_of_lt (hv : v < a.states.size) (w : List Nat) :
    update run a.states.size w v = run v :=
  update_of_ne (Nat.ne_of_lt hv) w run

/-- The classes of runs that occurred before, as long as none of them is cut. -/
theorem exists_state_append (h : a.Faithful s run) {r w : List Nat} (old : IsOldEnd s x r)
    (occurs : w <:+: s) :
    (∃ v < a.states.size, SameEnds (s ++ [x]) w (run v)) ∨
    (∃ v < a.states.size, ¬run v <:+ s ++ [x] ∧ SameEnds s r (run v) ∧
      SameEnds (s ++ [x]) w r) := by
  obtain ⟨v, hv, same⟩ := h.exists_state w occurs
  have suffix := (h.describes v hv).isLongest.isSuffix same
  by_cases cut : w <:+ s ++ [x] ∧ ¬run v <:+ s ++ [x]
  · obtain ⟨-, class_v, class_w⟩ := old.of_split occurs same cut.1 cut.2
    exact .inr ⟨v, hv, cut.2, class_v, class_w⟩
  · refine .inl ⟨v, hv, same.append_singleton ⟨fun ends => ?_, fun ends => suffix.trans ends⟩⟩
    by_contra not
    exact cut ⟨ends, not⟩

theorem run_ne_append (h : a.Faithful s run) (hv : v < a.states.size) : run v ≠ s ++ [x] := by
  intro eq
  have := h.length_run_le hv
  simp only [eq, List.length_append, List.length_singleton] at this
  omega

end Faithful

/-- Longest runs stay different when a state with a new one is added. -/
theorem injective_update {n : Nat} {w : List Nat}
    (injective : ∀ v < n, ∀ u < n, run v = run u → v = u) (new : ∀ v < n, run v ≠ w) :
    ∀ v < n + 1, ∀ u < n + 1, update run n w v = update run n w u → v = u := by
  intro v hv u hu eq
  rcases Nat.lt_succ_iff_lt_or_eq.1 hv with hv | rfl <;>
    rcases Nat.lt_succ_iff_lt_or_eq.1 hu with hu | rfl
  · rw [update_of_ne (Nat.ne_of_lt hv), update_of_ne (Nat.ne_of_lt hu)] at eq
    exact injective v hv u hu eq
  · rw [update_of_ne (Nat.ne_of_lt hv), update_self] at eq
    exact absurd eq (new v hv)
  · rw [update_of_ne (Nat.ne_of_lt hu), update_self] at eq
    exact absurd eq.symm (new u hu)
  · rfl

/-- The automaton in which the new state links to state `u`. -/
def linked (a : SuffixAutomaton) (x u : Nat) : SuffixAutomaton :=
  (a.grown x).setLink a.states.size u

@[simp] theorem size_linked (a : SuffixAutomaton) (x u : Nat) :
    (a.linked x u).states.size = a.states.size + 1 := by
  rw [linked, size_setLink, size_grown]

theorem state_linked (a : SuffixAutomaton) (x u v : Nat) :
    (a.linked x u).state v = if v = a.states.size
      then { (a.grown x).state v with link? := some u } else (a.grown x).state v :=
  state_setLink (by rw [size_grown]; omega) u v

namespace Faithful

section

variable (h : a.Faithful s run) (hu : u < a.states.size) (old : IsOldEnd s x (run u))
include h hu old

/-- The longest old end is the longest run of its class, so the new place cuts no class. -/
theorem isSuffix_of_sameEnds (hv : v < a.states.size) (same : SameEnds s (run u) (run v)) :
    run v <:+ s ++ [x] :=
  h.eq_of_sameEnds hu hv same ▸ old.isSuffix

/-- A state from before still describes its run. -/
theorem describes_linked (hv : v < a.states.size) :
    ((a.linked x u).state v).Describes (s ++ [x]) (a.states.size + 1)
      (update run a.states.size (s ++ [x])) (run v) := by
  rw [state_linked, if_neg (Nat.ne_of_lt hv)]
  obtain ⟨length, link, endPos, -⟩ := h.fields_grown (x := x) hv
  refine (h.describes v hv).append x length endPos (h.sorted_grown hv) ?_
    (fun y => h.isSome_target_grown hv) (fun nil => ?_) (fun ne => ?_)
  · intro y t target
    rcases h.target_grown hv target with ⟨rfl, occurs, same⟩ | target
    · exact ⟨Nat.lt_succ_self _, occurs, by rwa [update_self]⟩
    · have ht := ((h.describes v hv).target y t target).1
      refine ⟨Nat.lt_succ_of_lt ht, ?_⟩
      rw [update_run_of_lt ht]
      refine (h.describes v hv).target_append old (h.describes t ht).isLongest target ?_
      rintro ⟨-, not, same⟩
      exact not (h.isSuffix_of_sameEnds hu old ht same)
  · rw [link]
    exact (h.describes v hv).link_nil nil
  · have uncut : run v <:+ s ++ [x] ∨ ¬SameEnds s (run u) (run v) :=
      or_iff_not_imp_right.2 fun same =>
        h.isSuffix_of_sameEnds hu old hv (Classical.not_not.1 same)
    obtain ⟨t, ht, rest⟩ := (h.describes v hv).link_append old uncut ne
    exact ⟨t, Nat.lt_succ_of_lt ht, by rwa [link, update_run_of_lt ht]⟩

theorem linked : (a.linked x u).Faithful (s ++ [x]) (update run a.states.size (s ++ [x])) := by
  constructor
  case sequence => simp [SuffixAutomaton.linked, setLink, grown, append, h.sequence]
  case length_lt =>
    have := h.length_lt
    simp only [size_linked, List.length_append, List.length_singleton]
    omega
  case last_lt => simp [SuffixAutomaton.linked, setLink, grown, append]
  case run_last => simp [SuffixAutomaton.linked, setLink, grown, append]
  case run_zero => rw [update_run_of_lt h.size_pos, h.run_zero]
  case injective =>
    rw [size_linked]
    exact injective_update h.injective fun v => h.run_ne_append
  case describes =>
    intro v hv
    rw [size_linked] at hv ⊢
    rcases Nat.lt_succ_iff_lt_or_eq.1 hv with hv | rfl
    · rw [update_run_of_lt hv]
      exact h.describes_linked hu old hv
    · rw [state_linked, if_pos rfl, h.state_grown, if_pos rfl, update_self]
      exact .whole old (Nat.lt_succ_of_lt hu) (update_run_of_lt hu _)
  case exists_state =>
    intro w occurs
    rw [size_linked]
    by_cases before : w <:+: s
    · rcases h.exists_state_append old before with ⟨v, hv, same⟩ | ⟨v, hv, not, same, -⟩
      · exact ⟨v, Nat.lt_succ_of_lt hv, by rwa [update_run_of_lt hv]⟩
      · exact absurd (h.isSuffix_of_sameEnds hu old hv same) not
    · have ends := (isInfix_append_singleton occurs).resolve_left before
      exact ⟨a.states.size, Nat.lt_succ_self _, by
        rw [update_self]; exact sameEnds_of_new before ends⟩

end

end Faithful

/-! ## A class is cut -/

/-- The longest end that has occurred before, `run p ++ [x]`, is not the longest run of its
state `q`. -/
structure Cut (a : SuffixAutomaton) (run : Nat → List Nat) (x p q : Nat) : Prop where
  leading : ∃ above, a.leading x = p :: above
  target : (a.state p).target? x = some q
  length_ne : (run q).length ≠ (run p).length + 1

/-- The automaton in which the shorter runs of state `q` have a state of their own. -/
def divided (a : SuffixAutomaton) (x length q : Nat) : SuffixAutomaton :=
  ((a.grown x).split (a.leading x) length x q).setLink a.states.size (a.states.size + 1)

/-- The longest runs after a state has been split. -/
def dividedRun (a : SuffixAutomaton) (s : List Nat) (run : Nat → List Nat) (x p : Nat) :
    Nat → List Nat :=
  update (update run a.states.size (s ++ [x])) (a.states.size + 1) (run p ++ [x])

@[simp] theorem size_divided (a : SuffixAutomaton) (x length q : Nat) :
    (a.divided x length q).states.size = a.states.size + 2 := by
  rw [divided, size_setLink, size_split, size_grown]

theorem dividedRun_of_lt (hv : v < a.states.size) : dividedRun a s run x p v = run v := by
  rw [dividedRun, update_of_ne (by omega), update_of_ne (by omega)]

theorem dividedRun_size : dividedRun a s run x p a.states.size = s ++ [x] := by
  rw [dividedRun, update_of_ne (by omega), update_self]

theorem dividedRun_size_succ : dividedRun a s run x p (a.states.size + 1) = run p ++ [x] :=
  update_self ..

namespace Cut

variable (c : Cut a run x p q) (h : a.Faithful s run)
include c h

theorem mem_leading : p < a.states.size ∧ run p <:+ s ∧ run p ++ [x] <:+: s := by
  obtain ⟨above, eq⟩ := c.leading
  exact h.mem_leading.1 (eq ▸ List.mem_cons_self)

theorem isOldEnd : IsOldEnd s x (run p ++ [x]) := by
  obtain ⟨above, eq⟩ := c.leading
  exact h.isOldEnd_cons eq

theorem lt_size : q < a.states.size :=
  ((h.describes p (c.mem_leading h).1).target x q c.target).1

theorem sameEnds : SameEnds s (run p ++ [x]) (run q) :=
  ((h.describes p (c.mem_leading h).1).target x q c.target).2.2

theorem isSuffix : run p ++ [x] <:+ run q :=
  (h.describes q (c.lt_size h)).isLongest.isSuffix (c.sameEnds h)

theorem length_lt : (run p ++ [x]).length < (run q).length := by
  have := (c.isSuffix h).length_le
  have := c.length_ne
  simp only [List.length_append, List.length_singleton] at *
  omega

theorem not_isSuffix : ¬run q <:+ s ++ [x] := fun ends => by
  have occurs := (h.describes q (c.lt_size h)).isLongest.isInfix
  have := ((c.isOldEnd h).isSuffix_of _ occurs ends).length_le
  have := c.length_lt h
  omega

/-- No state but `q` holds the longest old end. -/
theorem eq_of_sameEnds (hv : v < a.states.size) (same : SameEnds s (run p ++ [x]) (run v)) :
    v = q :=
  h.eq_of_sameEnds hv (c.lt_size h) (same.symm.trans (c.sameEnds h))

/-- The states that are led to the new one are all ends that have led to `q`. -/
theorem mem_redirected :
    v ∈ (a.grown x).redirected (a.leading x) x q ↔
      v < a.states.size ∧ run v <:+ s ∧ (a.state v).target? x = some q := by
  obtain ⟨above, path⟩ := c.leading
  have first : ∀ w ∈ a.leading x, run w <:+ run p := by
    intro w mem
    rcases List.mem_cons.1 (path ▸ mem) with rfl | later
    · exact List.suffix_rfl
    · have shorter := List.rel_of_pairwise_cons (path ▸ h.leading_pairwise (x := x)) later
      exact List.suffix_of_suffix_length_le (h.mem_leading.1 mem).2.1 (c.mem_leading h).2.1
        shorter.le
  -- what lies between two ends that lead to `q` leads there too
  have between : (a.leading x).Pairwise fun u w =>
      (((a.grown x).state w).target? x == some q) →
        (((a.grown x).state u).target? x == some q) := by
    refine h.leading_pairwise.imp_of_mem fun {u w} hu hw shorter leads => ?_
    rw [beq_iff_eq, h.target?_grown_of_leading hw] at leads
    rw [beq_iff_eq, h.target?_grown_of_leading hu]
    obtain ⟨hw, suffix_w, -⟩ := h.mem_leading.1 hw
    obtain ⟨hu', suffix_u, occurs⟩ := h.mem_leading.1 hu
    have class_w := ((h.describes w hw).target x q leads).2.2
    have inside := List.suffix_of_suffix_length_le suffix_w suffix_u shorter.le
    have class_u := ((class_w.trans (c.sameEnds h).symm).of_between
      (isSuffix_append_singleton.2 ⟨rfl, inside⟩)
      (isSuffix_append_singleton.2 ⟨rfl, first u hu⟩)).trans (c.sameEnds h)
    obtain ⟨t, target⟩ := Option.isSome_iff_exists.1 ((h.isSome_target_iff hu').2 occurs)
    obtain ⟨ht, -, class_t⟩ := (h.describes u hu').target x t target
    rw [target, h.eq_of_sameEnds ht (c.lt_size h) (class_t.symm.trans class_u)]
  rw [redirected, takeWhile_eq_filter between, List.mem_filter]
  constructor
  · rintro ⟨mem, leads⟩
    obtain ⟨hv, suffix, -⟩ := h.mem_leading.1 mem
    rw [beq_iff_eq, h.target?_grown_of_leading mem] at leads
    exact ⟨hv, suffix, leads⟩
  · rintro ⟨hv, suffix, leads⟩
    have mem : v ∈ a.leading x :=
      h.mem_leading.2 ⟨hv, suffix, ((h.describes v hv).target x q leads).2.1⟩
    exact ⟨mem, by rw [beq_iff_eq, h.target?_grown_of_leading mem, leads]⟩

theorem not_mem_redirected : q ∉ (a.grown x).redirected (a.leading x) x q := fun mem => by
  obtain ⟨hq, -, leads⟩ := (c.mem_redirected h).1 mem
  have same := ((h.describes q hq).target x q leads).2.2
  have := ((h.describes q hq).isLongest.isSuffix same).length_le
  simp only [List.length_append, List.length_singleton] at this
  omega

theorem state_divided (length : Nat) :
    (a.divided x length q).state v =
      if v = a.states.size + 1 then { (a.grown x).state q with length, count := 0 }
      else if v = a.states.size then
        { (a.grown x).state v with link? := some (a.states.size + 1) }
      else if v = q then { (a.grown x).state q with link? := some (a.states.size + 1) }
      else if v ∈ (a.grown x).redirected (a.leading x) x q then
        ((a.grown x).state v).setTarget x (a.states.size + 1)
      else (a.grown x).state v := by
  have hq := c.lt_size h
  have inside : ∀ u ∈ a.leading x, u < (a.grown x).states.size := fun u mem => by
    simpa using Nat.lt_succ_of_lt (h.mem_leading.1 mem).1
  have nodup : (a.leading x).Nodup := h.suffixes_nodup.filter _
  have fresh : a.states.size ∉ (a.grown x).redirected (a.leading x) x q := fun mem =>
    Nat.lt_irrefl _ ((c.mem_redirected h).1 mem).1
  have small : q < (a.grown x).states.size := by simpa using Nat.lt_succ_of_lt hq
  rw [divided, state_setLink (by simp only [size_split, size_grown]; omega),
    state_split small nodup inside (c.not_mem_redirected h), size_grown]
  by_cases last : v = a.states.size
  · subst last
    rw [if_pos rfl, if_neg (by omega), if_neg (by omega), if_neg fresh, if_neg (by omega),
      if_pos rfl]
  · rw [if_neg last]
    by_cases new : v = a.states.size + 1
    · rw [if_pos new, if_pos new]
    · rw [if_neg new, if_neg new, if_neg last]

/-- The states from before, `q` apart, keep all but their targets. -/
theorem fields_divided (length : Nat) (hv : v < a.states.size) :
    ((a.divided x length q).state v).length = (a.state v).length ∧
    ((a.divided x length q).state v).endPos = (a.state v).endPos ∧
    ((a.divided x length q).state v).count = (a.state v).count ∧
    ((a.divided x length q).state v).link? =
      if v = q then some (a.states.size + 1) else (a.state v).link? := by
  obtain ⟨length_eq, link, endPos, count⟩ := h.fields_grown (x := x) hv
  rw [c.state_divided h, if_neg (by omega), if_neg (by omega)]
  by_cases eq : v = q
  · subst eq
    simp [length_eq, endPos, count]
  · rw [if_neg eq]
    split <;> simp [length_eq, endPos, count, link]

theorem sorted_divided (length : Nat) (hv : v < a.states.size) :
    ((a.divided x length q).state v).Sorted := by
  rw [c.state_divided h, if_neg (by omega), if_neg (by omega)]
  have sorted := h.sorted_grown (x := x) hv
  split
  · rename_i eq
    exact eq ▸ sorted
  · split
    · exact sorted.setTarget ..
    · exact sorted

theorem target?_divided (length : Nat) (hv : v < a.states.size) (y : Nat) :
    ((a.divided x length q).state v).target? y =
      if v ∈ (a.grown x).redirected (a.leading x) x q ∧ y = x then some (a.states.size + 1)
      else ((a.grown x).state v).target? y := by
  rw [c.state_divided h, if_neg (by omega), if_neg (by omega)]
  by_cases eq : v = q
  · subst eq
    have := c.not_mem_redirected h
    simp [this, SuffixState.target?]
  · rw [if_neg eq]
    by_cases mem : v ∈ (a.grown x).redirected (a.leading x) x q
    · simp [mem, SuffixState.target?_setTarget]
    · simp [mem]

/-- The targets of the states from before are those of the longer sequence. -/
theorem target_divided (length : Nat) (hv : v < a.states.size) {y t : Nat}
    (target : ((a.divided x length q).state v).target? y = some t) :
    t < a.states.size + 2 ∧ run v ++ [y] <:+: s ++ [x] ∧
      SameEnds (s ++ [x]) (run v ++ [y]) (dividedRun a s run x p t) := by
  have old := c.isOldEnd h
  rw [c.target?_divided h length hv] at target
  split at target
  · rename_i led
    obtain ⟨mem, rfl⟩ := led
    obtain ⟨-, suffix, leads⟩ := (c.mem_redirected h).1 mem
    obtain ⟨-, occurs, same⟩ := (h.describes v hv).target y q leads
    have ends : run v ++ [y] <:+ s ++ [y] := isSuffix_append_singleton.2 ⟨rfl, suffix⟩
    obtain rfl := Option.some.inj target
    rw [dividedRun_size_succ]
    exact ⟨by omega, ends.isInfix, (old.of_split occurs same ends (c.not_isSuffix h)).2.2⟩
  · rename_i other
    rcases h.target_grown hv target with ⟨rfl, occurs, same⟩ | before
    · exact ⟨by omega, occurs, by rwa [dividedRun_size]⟩
    · have ht := ((h.describes v hv).target y t before).1
      refine ⟨by omega, ?_⟩
      rw [dividedRun_of_lt ht]
      refine (h.describes v hv).target_append old (h.describes t ht).isLongest before ?_
      rintro ⟨ends, -, same⟩
      obtain rfl := c.eq_of_sameEnds h ht same
      obtain ⟨rfl, suffix⟩ := isSuffix_append_singleton.1 ends
      exact other ⟨(c.mem_redirected h).2 ⟨hv, suffix, before⟩, rfl⟩

theorem isSome_target_divided (length : Nat) (hv : v < a.states.size) {y : Nat}
    (occurs : run v ++ [y] <:+: s ++ [x]) :
    (((a.divided x length q).state v).target? y).isSome := by
  rw [c.target?_divided h length hv]
  split
  · rfl
  · exact h.isSome_target_grown hv occurs

/-! ## The states after a cut -/

/-- A state from before still describes its run. -/
theorem describes_old (length : Nat) (hv : v < a.states.size) :
    ((a.divided x length q).state v).Describes (s ++ [x]) (a.states.size + 2)
      (dividedRun a s run x p) (run v) := by
  have hq := c.lt_size h
  obtain ⟨length_eq, endPos, -, link⟩ := c.fields_divided h length hv
  refine (h.describes v hv).append x length_eq endPos (c.sorted_divided h length hv)
    (fun y t => c.target_divided h length hv) (fun y => c.isSome_target_divided h length hv)
    (fun nil => ?_) (fun ne => ?_)
  · have : v ≠ q := by
      rintro rfl
      simpa [nil] using c.length_lt h
    rw [link, if_neg this]
    exact (h.describes v hv).link_nil nil
  · by_cases eq : v = q
    · subst eq
      refine ⟨a.states.size + 1, by omega, by rw [link, if_pos rfl], ?_⟩
      rw [dividedRun_size_succ]
      refine ⟨c.isSuffix h, c.length_lt h, fun t inside longer => ?_⟩
      have between : SameEnds s t (run v) := by
        have := List.suffix_of_suffix_length_le (c.isSuffix h) inside longer.le
        exact (c.sameEnds h).of_between this inside
      refine between.append_singleton ⟨fun ends => ?_, fun ends => inside.trans ends⟩
      have occurs := inside.isInfix.trans (h.describes v hv).isLongest.isInfix
      have := ((c.isOldEnd h).isSuffix_of t occurs ends).length_le
      omega
    · have uncut : run v <:+ s ++ [x] ∨ ¬SameEnds s (run p ++ [x]) (run v) :=
        .inr fun same => eq (c.eq_of_sameEnds h hv same)
      obtain ⟨t, ht, rest⟩ := (h.describes v hv).link_append (c.isOldEnd h) uncut ne
      exact ⟨t, by omega, by rwa [link, if_neg eq, dividedRun_of_lt ht]⟩

/-- The longest old end is the longest run of its class now. -/
theorem isLongest : IsLongest (s ++ [x]) (run p ++ [x]) := by
  have old := c.isOldEnd h
  refine ⟨isInfix_append old.isInfix, fun y => ?_⟩
  by_cases ends : y :: (run p ++ [x]) <:+ s ++ [x]
  · -- a longer end is new, so it does not end where the old one has occurred
    obtain ⟨i, here⟩ := isInfix_iff_endsAt.1 old.isInfix
    refine ⟨i, endsAt_append_singleton.2 (.inl here), fun longer => ?_⟩
    have before := (endsAt_append_of_le here.1).1 longer
    have := (old.isSuffix_of _ (isInfix_iff_endsAt.2 ⟨i, before⟩) ends).length_le
    simp only [List.length_cons] at this
    omega
  · exact ⟨(s ++ [x]).length, endsAt_length.2 old.isSuffix, fun longer =>
      ends (endsAt_length.1 longer)⟩

/-- The new state describes the longest old end. -/
theorem describes_new :
    ((a.divided x ((run p).length + 1) q).state (a.states.size + 1)).Describes (s ++ [x])
      (a.states.size + 2) (dividedRun a s run x p) (run p ++ [x]) := by
  have hq := c.lt_size h
  have old := c.isOldEnd h
  have desc := h.describes q hq
  have ne_q : run q ≠ [] := fun nil => by simpa [nil] using c.length_lt h
  obtain ⟨-, link, endPos, -⟩ := h.fields_grown (x := x) hq
  have targets : ∀ y, ((a.grown x).state q).target? y =
      ((a.divided x ((run p).length + 1) q).state q).target? y := fun y => by
    rw [c.target?_divided h _ hq, if_neg fun led => c.not_mem_redirected h led.1]
  rw [c.state_divided h, if_pos rfl]
  constructor
  case isLongest => exact c.isLongest h
  case length => simp
  case endsAt =>
    intro _
    rw [endPos]
    exact endsAt_append_singleton.2 (.inl ((c.sameEnds h _).2 (desc.endsAt ne_q)))
  case first =>
    intro _ i ends
    rw [endPos]
    rcases endsAt_append_singleton.1 ends with here | ⟨rfl, -⟩
    · exact desc.first ne_q i ((c.sameEnds h i).1 here)
    · have := (desc.endsAt ne_q).1
      omega
  case sorted => exact h.sorted_grown hq
  case target =>
    intro y t target
    obtain ⟨ht, occurs, same⟩ := c.target_divided h _ hq ((targets y).symm.trans target)
    have shift := (c.sameEnds h).snoc_append x y
    exact ⟨ht, shift.isInfix_iff.2 occurs, shift.trans same⟩
  case isSome_target =>
    intro y occurs
    refine Eq.trans (congrArg Option.isSome (targets y)) ?_
    exact c.isSome_target_divided h _ hq (snoc_isInfix_append (c.sameEnds h) occurs)
  case link_nil => intro nil; simp at nil
  case link =>
    intro _
    obtain ⟨u, hu, eq, suffix, shorter, class_q⟩ := desc.link ne_q
    have short : (run u).length < (run p ++ [x]).length := by
      by_contra le
      have inside := List.suffix_of_suffix_length_le (c.isSuffix h) suffix (Nat.le_of_not_lt le)
      have := h.eq_of_sameEnds hu hq ((c.sameEnds h).of_between inside suffix)
      simp [this] at shorter
    refine ⟨u, by omega, link.trans eq, ?_⟩
    rw [dividedRun_of_lt hu]
    refine ⟨List.suffix_of_suffix_length_le suffix (c.isSuffix h) short.le, short, ?_⟩
    intro t inside longer
    have same := (class_q t (inside.trans (c.isSuffix h)) longer).trans (c.sameEnds h).symm
    exact same.append_singleton ⟨fun _ => old.isSuffix, fun _ => inside.trans old.isSuffix⟩

/-- The longest old end was the longest run of no state, and it is not the whole sequence. -/
theorem run_ne (hv : v < a.states.size + 1) :
    update run a.states.size (s ++ [x]) v ≠ run p ++ [x] := by
  intro eq
  rcases Nat.lt_succ_iff_lt_or_eq.1 hv with hv | rfl
  · rw [update_of_ne (Nat.ne_of_lt hv)] at eq
    have same : SameEnds s (run p ++ [x]) (run v) := eq ▸ SameEnds.refl s _
    have := c.length_lt h
    rw [← c.eq_of_sameEnds h hv same, eq] at this
    omega
  · rw [update_self] at eq
    have := (c.isOldEnd h).isInfix.length_le
    simp only [← eq, List.length_append, List.length_singleton] at this
    omega

theorem faithful :
    (a.divided x ((run p).length + 1) q).Faithful (s ++ [x]) (dividedRun a s run x p) := by
  have old := c.isOldEnd h
  have cases : ∀ v < a.states.size + 2,
      v < a.states.size ∨ v = a.states.size ∨ v = a.states.size + 1 := by omega
  constructor
  case sequence => simp [divided, setLink, split, copy, grown, append, h.sequence]
  case length_lt =>
    have := h.length_lt
    simp only [size_divided, List.length_append, List.length_singleton]
    omega
  case last_lt =>
    rw [size_divided]
    simp [divided, setLink, split, copy, grown, append]
  case run_last => simp [divided, setLink, split, copy, grown, append, dividedRun_size]
  case run_zero => rw [dividedRun_of_lt h.size_pos, h.run_zero]
  case injective =>
    rw [size_divided]
    exact injective_update (injective_update h.injective fun v => h.run_ne_append)
      fun v hv => c.run_ne h hv
  case describes =>
    intro v hv
    rw [size_divided] at hv ⊢
    rcases cases v hv with hv | rfl | rfl
    · rw [dividedRun_of_lt hv]
      exact c.describes_old h _ hv
    · rw [c.state_divided h, if_neg (by omega), if_pos rfl, h.state_grown, if_pos rfl,
        dividedRun_size]
      exact .whole old (by omega) dividedRun_size_succ
    · rw [dividedRun_size_succ]
      exact c.describes_new h
  case exists_state =>
    intro w occurs
    rw [size_divided]
    by_cases before : w <:+: s
    · rcases h.exists_state_append old before with ⟨v, hv, same⟩ | ⟨-, -, -, -, same⟩
      · exact ⟨v, by omega, by rwa [dividedRun_of_lt hv]⟩
      · exact ⟨a.states.size + 1, by omega, by rwa [dividedRun_size_succ]⟩
    · have ends := (isInfix_append_singleton occurs).resolve_left before
      exact ⟨a.states.size, by omega, by
        rw [dividedRun_size]; exact sameEnds_of_new before ends⟩

end Cut

/-! ## All elements -/

theorem Faithful.takeWhile_suffixes (h : a.Faithful s run) (x : Nat) :
    (a.suffixes a.last).takeWhile (fun v => ((a.state v).target? x).isNone) = a.lacking x :=
  takeWhile_eq_filter h.lacking_first

theorem Faithful.drop_suffixes (h : a.Faithful s run) (x : Nat) :
    (a.suffixes a.last).drop (a.lacking x).length = a.leading x := by
  refine (drop_length_filter h.lacking_first).trans (List.filter_congr fun v _ => ?_)
  simp

/-- An extension links the new state to an old one, or it splits a state. -/
theorem Faithful.extend_cases (h : a.Faithful s run) (x : Nat) :
    (∃ u < a.states.size, IsOldEnd s x (run u) ∧
      a.extend x = a.linked x u) ∨
    (∃ p q, Cut a run x p q ∧ a.extend x = a.divided x ((run p).length + 1) q) := by
  simp only [SuffixAutomaton.extend, h.takeWhile_suffixes, h.drop_suffixes]
  cases path : a.leading x with
  | nil =>
    refine .inl ⟨0, h.size_pos, ?_, rfl⟩
    rw [h.run_zero]
    exact h.isOldEnd_nil path
  | cons p above =>
    obtain ⟨hp, -, occurs⟩ := h.mem_leading.1 (path ▸ List.mem_cons_self)
    obtain ⟨q, target⟩ := Option.isSome_iff_exists.1 ((h.isSome_target_iff hp).2 occurs)
    obtain ⟨hq, -, same⟩ := (h.describes p hp).target x q target
    have suffix := (h.describes q hq).isLongest.isSuffix same
    simp only [target, Option.getD_some, (h.describes p hp).length, (h.describes q hq).length]
    by_cases eq : (run q).length = (run p).length + 1
    · have run_q : run p ++ [x] = run q := suffix.eq_of_length (by simp [eq])
      exact .inl ⟨q, hq, run_q ▸ h.isOldEnd_cons path, if_pos eq⟩
    · refine .inr ⟨p, q, ⟨⟨above, path⟩, target, eq⟩, (if_neg eq).trans ?_⟩
      rw [divided, path, size_setTargets]
      simp [grown, append]

/-- The automaton of the empty sequence. -/
theorem faithful_empty : ({} : SuffixAutomaton).Faithful [] fun _ => [] := by
  have longest : IsLongest ([] : List Nat) [] := .of_isPrefix List.prefix_rfl
  constructor
  case describes =>
    intro v hv
    obtain rfl : v = 0 := by simpa using hv
    refine ⟨longest, rfl, by simp, by simp, List.Pairwise.nil, by simp [state, SuffixState.target?],
      by simp, fun _ => rfl, by simp⟩
  case exists_state =>
    intro w occurs
    exact ⟨0, by simp, by rw [List.infix_nil.1 occurs]; exact SameEnds.refl _ _⟩
  all_goals simp

end RulesText.SuffixAutomaton
