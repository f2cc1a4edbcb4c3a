import RulesText.Proofs.Gap.RepeatStates

/-!
# The bounds of a suffix automaton

While it is built, an automaton refers to nothing that is not there: links and targets are states,
and the end positions are places of the sequence with room for the longest factor in front of
them. Links lead to shorter factors, so following them comes to an end. For two elements or more
there are fewer than twice as many states as elements.

## Main definitions

* `SuffixAutomaton.WellFormed`: what all references of an automaton keep to.
* `SuffixAutomaton.LinkWalk`: a loop that follows the links.
* `SuffixAutomaton.WalksEnd`: the loops of an extension along the links come to their ends.

## Main statements

* `SuffixAutomaton.ofSequences_wellFormed`: the automaton of several sequences is well formed
  after every element, and so is the finished one.
-/

namespace RulesText.SuffixAutomaton

variable {a b : SuffixAutomaton} {s path : List Nat} {run : Nat → List Nat} {go : Nat → Bool}
  {v x : Nat} {v? stop? : Option Nat}

/-- Every state that is referred to exists, and so does every place of the sequence. -/
structure WellFormed (a : SuffixAutomaton) : Prop where
  last_lt : a.last < a.states.size
  /-- The targets of a state are states with longer factors. -/
  target : ∀ v < a.states.size, ∀ y t, (y, t) ∈ (a.state v).next →
    t < a.states.size ∧ (a.state v).length < (a.state t).length
  /-- The first state has no link and only the empty factor. -/
  first : (a.state 0).link? = none ∧ (a.state 0).length = 0
  /-- Every other state has a link, to a state with shorter factors. -/
  link : ∀ v < a.states.size, v ≠ 0 →
    ∃ u < a.states.size, (a.state v).link? = some u ∧ (a.state u).length < (a.state v).length
  /-- The longest factor of a state fits in front of its end position. -/
  endPos : ∀ v < a.states.size, v ≠ 0 →
    (a.state v).length ≤ (a.state v).endPos + 1 ∧ (a.state v).endPos < a.sequence.size
  lt_size : a.sequence.size < a.states.size
  size_le : 2 ≤ a.sequence.size → a.states.size ≤ 2 * a.sequence.size - 1

/-! ## Walks along links -/

/-- A loop that follows the links from `v?` on, while there are any and `go` holds, passes through
`path` and comes to its end at `stop?`. -/
inductive LinkWalk (a : SuffixAutomaton) (go : Nat → Bool) :
    (v? : Option Nat) → (path : List Nat) → (stop? : Option Nat) → Prop
  | done : LinkWalk a go none [] none
  | stop {v : Nat} (stops : go v = false) : LinkWalk a go (some v) [] (some v)
  | step {v : Nat} {path : List Nat} {stop? : Option Nat} (goes : go v = true)
    (rest : LinkWalk a go (a.state v).link? path stop?) :
    LinkWalk a go (some v) (v :: path) stop?

namespace LinkWalk

/-- A loop that stops earlier passes through the start of the path. -/
theorem takeWhile (h : a.LinkWalk (fun _ => true) v? path stop?) (go : Nat → Bool) :
    a.LinkWalk go v? (path.takeWhile go) (path.dropWhile go).head? := by
  induction h with
  | done => exact .done
  | stop stops => cases stops
  | @step v path stop? _ rest ih =>
    by_cases goes : go v = true
    · simpa [goes] using LinkWalk.step goes ih
    · simpa [goes] using LinkWalk.stop (a := a) (Bool.eq_false_iff.2 goes)

/-- What is left of a walk is a walk. -/
theorem drop {front above : List Nat} (h : a.LinkWalk (fun _ => true) v? path stop?)
    (eq : path = front ++ v :: above) :
    a.LinkWalk (fun _ => true) (some v) (v :: above) stop? := by
  induction h generalizing front with
  | done => simp at eq
  | stop stops => cases stops
  | @step u path stop? goes rest ih =>
    cases front with
    | nil =>
      obtain ⟨rfl, rfl⟩ := List.cons.inj eq
      exact .step goes rest
    | cons w front => exact ih (List.cons.inj eq).2

theorem congr (h : a.LinkWalk go v? path stop?)
    (same : ∀ v ∈ path, (b.state v).link? = (a.state v).link?) : b.LinkWalk go v? path stop? := by
  induction h with
  | done => exact .done
  | stop stops => exact .stop stops
  | step goes rest ih =>
    obtain ⟨here, later⟩ := List.forall_mem_cons.1 same
    exact .step goes (here ▸ ih later)

end LinkWalk

/-- Lengths descend along links, so a walk has come to the first state before the fuel is used
up. -/
theorem WellFormed.linkWalk_linkPath (h : a.WellFormed) {fuel : Nat} (hv : v < a.states.size)
    (enough : (a.state v).length < fuel) :
    a.LinkWalk (fun _ => true) (some v) (a.linkPath fuel v) none := by
  induction fuel generalizing v with
  | zero => omega
  | succ fuel ih =>
    refine .step rfl ?_
    by_cases zero : v = 0
    · subst zero
      rw [h.first.1]
      exact .done
    · obtain ⟨u, hu, link, shorter⟩ := h.link v hv zero
      simpa only [link] using ih hu (by omega)

theorem WellFormed.length_lt (h : a.WellFormed) (hv : v < a.states.size) :
    (a.state v).length < a.states.size := by
  have := h.lt_size
  by_cases zero : v = 0
  · subst zero
    have := h.first.2
    omega
  · have := h.endPos v hv zero
    omega

/-- Nothing has stood behind the factors of state `v` where `x` is to stand. -/
def lacks (a : SuffixAutomaton) (x v : Nat) : Bool :=
  ((a.state v).target? x).isNone

/-- The loops of `a.extend x` along the links come to their ends, and they pass through the states
that the extension changes: in `a` those without a target for `x`, from the last state on, and
after these, in the automaton with the new state, those that lead to a state `q`. -/
structure WalksEnd (a : SuffixAutomaton) (x : Nat) : Prop where
  lacking : a.LinkWalk (a.lacks x) (some a.last) ((a.suffixes a.last).takeWhile (a.lacks x))
    ((a.suffixes a.last).dropWhile (a.lacks x)).head?
  leading : ∀ p above q, (a.suffixes a.last).dropWhile (a.lacks x) = p :: above → ∃ stop?,
    (a.grown x).LinkWalk (fun v => ((a.grown x).state v).target? x == some q) (some p)
      ((a.grown x).redirected (p :: above) x q) stop?

/-! ## Faithful automata -/

namespace Faithful

theorem wellFormed (h : a.Faithful s run)
    (size : 2 ≤ s.length → a.states.size ≤ 2 * s.length - 1) : a.WellFormed := by
  have places : a.sequence.size = s.length := by rw [← h.sequence, Array.length_toList]
  have length {v : Nat} (hv : v < a.states.size) : (a.state v).length = (run v).length :=
    (h.describes v hv).length
  constructor
  case last_lt => exact h.last_lt
  case target =>
    intro v hv y t mem
    have desc := h.describes v hv
    obtain ⟨ht, -, same⟩ := desc.target y t (desc.sorted.mem_next_iff.1 mem)
    have inside := ((h.describes t ht).isLongest.isSuffix same).length_le
    rw [List.length_append, List.length_singleton] at inside
    exact ⟨ht, by rw [length hv, length ht]; omega⟩
  case first =>
    have desc := h.describes 0 h.size_pos
    exact ⟨desc.link_nil h.run_zero, by rw [length h.size_pos, h.run_zero, List.length_nil]⟩
  case link =>
    intro v hv ne
    obtain ⟨u, hu, link, -, shorter, -⟩ := (h.describes v hv).link (h.run_ne_nil hv ne)
    exact ⟨u, hu, link, by rwa [length hv, length hu]⟩
  case endPos =>
    intro v hv ne
    have ends := (h.describes v hv).endsAt (h.run_ne_nil hv ne)
    exact ⟨by rw [length hv]; exact ends.length_le, places ▸ ends.1⟩
  case lt_size => exact places ▸ h.length_lt
  case size_le => exact places ▸ size

theorem walksEnd (h : a.Faithful s run) (wellFormed : a.WellFormed) (x : Nat) :
    a.WalksEnd x := by
  have whole : a.LinkWalk (fun _ => true) (some a.last) (a.suffixes a.last) none :=
    wellFormed.linkWalk_linkPath h.last_lt (wellFormed.length_lt h.last_lt)
  have parted := List.takeWhile_append_dropWhile (p := a.lacks x) (l := a.suffixes a.last)
  refine ⟨whole.takeWhile _, fun p above q eq => ?_⟩
  rw [eq] at parted
  -- the states that are left are old ones, and these keep their links
  have old : ∀ v ∈ p :: above, ((a.grown x).state v).link? = (a.state v).link? := by
    intro v mem
    have mem : v ∈ a.suffixes a.last := parted ▸ List.mem_append_right _ mem
    exact (h.fields_grown (h.mem_suffixes.1 mem).1).2.1
  exact ⟨_, ((whole.drop parted.symm).congr old).takeWhile _⟩

end Faithful

/-! ## The number of states -/

/-- An extension adds at most two states. It splits none before there are two elements: a longer
factor than the one it splits off is needed. -/
theorem Faithful.size_extend (h : a.Faithful s run) (x : Nat) :
    (a.extend x).states.size = a.states.size + 1 ∨
      2 ≤ s.length ∧ (a.extend x).states.size = a.states.size + 2 := by
  rcases h.extend_cases x with ⟨u, -, -, eq⟩ | ⟨p, q, cut, eq⟩
  · exact .inl (by rw [eq, size_linked])
  · have longer := cut.length_lt h
    have inside := h.length_run_le (cut.lt_size h)
    rw [List.length_append, List.length_singleton] at longer
    exact .inr ⟨by omega, by rw [eq, size_divided]⟩

theorem size_foldl_extend (s : List Nat) :
    (s.foldl extend {}).states.size ≤ max (s.length + 1) (2 * s.length - 1) := by
  induction s using List.reverseRecOn with
  | nil => simp
  | append_singleton s x ih =>
    obtain ⟨run, h, -⟩ := exists_faithful s
    rw [List.foldl_append, List.foldl_cons, List.foldl_nil, List.length_append,
      List.length_singleton]
    rcases h.size_extend x with eq | ⟨long, eq⟩ <;> omega

@[simp] theorem size_passCount (a : SuffixAutomaton) (v : Nat) :
    (a.passCount v).states.size = a.states.size := by
  rw [passCount]
  split <;> simp

@[simp] theorem size_sumCounts (a : SuffixAutomaton) :
    a.sumCounts.states.size = a.states.size := by
  have all (order : List Nat) (b : SuffixAutomaton) :
      (order.foldl passCount b).states.size = b.states.size := by
    induction order generalizing b with
    | nil => rfl
    | cons v order ih => rw [List.foldl_cons, ih, size_passCount]
  exact all _ a

/-! ## The automaton of several sequences -/

theorem exists_faithful_wellFormed (s : List Nat) :
    ∃ run, (s.foldl extend {}).Faithful s run ∧ (s.foldl extend {}).WellFormed := by
  obtain ⟨run, h, -⟩ := exists_faithful s
  have := size_foldl_extend s
  exact ⟨run, h, h.wellFormed fun _ => by omega⟩

/-- After every element the automaton of several sequences is well formed, and the next extension
comes to its end. The finished automaton is well formed too, and no longest factor of a state is cut
short by the bounds of the sequence. -/
theorem ofSequences_wellFormed (sequences : List (List Nat)) :
    (∀ n, (((concatenate sequences).take n).foldl extend {}).sequence.toList =
        (concatenate sequences).take n ∧
      (((concatenate sequences).take n).foldl extend {}).WellFormed ∧
      ∀ x, (((concatenate sequences).take n).foldl extend {}).WalksEnd x) ∧
    (ofSequences sequences).WellFormed ∧
    ∀ v < (ofSequences sequences).states.size, v ≠ 0 →
      (WordAutomaton.representative (ofSequences sequences)
        ((ofSequences sequences).state v)).length = ((ofSequences sequences).state v).length := by
  refine ⟨fun n => ?_, ?_⟩
  · obtain ⟨run, h, wellFormed⟩ := exists_faithful_wellFormed ((concatenate sequences).take n)
    exact ⟨h.sequence, wellFormed, h.walksEnd wellFormed⟩
  · obtain ⟨run, h, -⟩ := exists_faithful_sumCounts (concatenate sequences)
    have size := size_foldl_extend (concatenate sequences)
    refine ⟨h.wellFormed fun _ => ?_, fun v hv ne => ?_⟩
    · rw [size_sumCounts]
      omega
    · have length := (h.describes v hv).length
      exact (congrArg List.length (WordAutomaton.representative_eq h hv ne)).trans length.symm

end RulesText.SuffixAutomaton
