import RulesText.Proofs.Regex.Completeness
import RulesText.Proofs.Regex.Soundness
import RulesText.Regex.Finder

/-!
# Matches at a place and in a text

A search at a place finds a match if there is one, and a search in a text finds one if there is
one at any place of it. So both agree for every expression, whatever it asks of the neighbours
of a place.
-/

namespace RulesText.Regex

open Next (Refutes)

variable {r : Regex} {t : Text} {c d : Cursor} {passed : Passed}

namespace Searcher

variable {s : Searcher} {M : Ends Cursor} {W : Ends Match}

theorem Sound.attempt (h : s.Sound W) {limit : Text} {m : Match}
    (found : s.attempt limit c passed = .ok m) : W { stop := c } m := by
  obtain ⟨n, passed', ends, eq⟩ := h limit 0 _ { stop := c } passed m found
  obtain rfl := Except.ok.inj eq
  exact ends

theorem toOption_eq_some_iff {ε α : Type} {e : Except ε α} {a : α} :
    e.toOption = some a ↔ e = .ok a := by
  cases e <;> simp [Except.toOption]

theorem Sound.matchAt? (h : s.Sound W) {m : Match} (found : s.matchAt? c = some m) :
    W { stop := c } m := by
  rw [Searcher.matchAt?, toOption_eq_some_iff] at found
  exact h.attempt found

theorem Sound.lateMatchAt? (h : s.Sound W) {m : Match} (found : s.lateMatchAt? c = some m) :
    W { stop := c } m := by
  rw [Searcher.lateMatchAt?, toOption_eq_some_iff] at found
  exact h.attempt found

theorem Sound.firstMatch? (h : s.Sound W) {cs : List Cursor} {m : Match}
    (found : s.firstMatch? passed cs = some (c, m)) : c ∈ cs ∧ W { stop := c } m := by
  induction cs generalizing passed with
  | nil => simp [Searcher.firstMatch?] at found
  | cons b cs ih =>
    rw [Searcher.firstMatch?] at found
    split at found
    · rename_i n eq
      obtain ⟨rfl, rfl⟩ := Prod.mk.inj (Option.some.inj found)
      exact ⟨List.mem_cons_self, h.attempt eq⟩
    · obtain ⟨mem, ends⟩ := ih found
      exact ⟨List.mem_cons_of_mem _ mem, ends⟩

/-- A search that fails at several places leaves an obstacle at each of them. -/
theorem fails_of_firstMatch? {rules : Rules} {stuck : Obstacle}
    (explains : Explains t rules s M 0 .never stuck) {cs : List Cursor}
    (places : ∀ c ∈ cs, c.IsPlace t) (none : s.firstMatch? passed cs = none) :
    ∃ passed', Fails t rules passed passed' ∧ ∀ c ∈ cs, stuck.holds passed' c := by
  induction cs generalizing passed with
  | nil => exact ⟨passed, .refl t rules passed, by simp⟩
  | cons c cs ih =>
    rw [Searcher.firstMatch?] at none
    split at none
    · contradiction
    · rename_i middle eq
      have ended : ∀ d passed', M c d → Within passed passed' →
          Refutes t rules (fun m _ => .ok m) .never d passed' := by
        intro d passed' _ _ m passed'' _ _ err
        contradiction
      obtain ⟨fails, holds⟩ := explains.refutes c.ahead _ c passed
        (places c List.mem_cons_self) (Nat.le_refl _) ended { stop := c } middle rfl rfl eq
      obtain ⟨passed', fails', later⟩ :=
        ih (fun b mem => places b (List.mem_cons_of_mem _ mem)) none
      refine ⟨passed', fails.trans fails', List.forall_mem_cons.2 ⟨?_, later⟩⟩
      exact stuck.mono fails'.within holds

theorem Complete.firstMatch?_ne_none (h : s.Complete t M) {cs : List Cursor}
    (places : ∀ c ∈ cs, c.IsPlace t) (mem : c ∈ cs) (ends : M c d) :
    s.firstMatch? ∅ cs ≠ none := by
  intro none
  obtain ⟨stuck, own, explains⟩ := h 0 .never
  have e := explains own fun _ _ _ => rfl
  obtain ⟨passed, fails, holds⟩ := fails_of_firstMatch? e places none
  exact e.resolves passed c d fails.closed (places c mem) ends (holds c mem)

end Searcher

/-- There is a match at a place if the search there finds one. -/
theorem isSome_matchAt?_iff (place : c.IsPlace t) :
    (r.searcher.matchAt? c).isSome ↔ ∃ d, r.Matches c d := by
  constructor
  · intro found
    obtain ⟨m, eq⟩ := Option.isSome_iff_exists.1 found
    exact ⟨m.stop, matches_of_carries ((sound_searcher r .atOnce).matchAt? eq)⟩
  · rintro ⟨d, ends⟩
    have places : ∀ b ∈ [c], b.IsPlace t := by simpa using place
    have := (complete_searcher t r).firstMatch?_ne_none places List.mem_cons_self ends
    rw [Searcher.firstMatch?] at this
    rw [Searcher.matchAt?]
    split at this
    · rename_i m eq
      rw [eq]
      rfl
    · simp [Searcher.firstMatch?] at this

/-- A search in a text finds a match if there is one at any place of the text. -/
theorem occursIn_iff : r.searcher.occursIn t ↔ ∃ c d, c.IsPlace t ∧ r.Matches c d := by
  have places : ∀ c, c ∈ (Cursor.start t).places ↔ c.IsPlace t := fun c =>
    Cursor.mem_places_iff.trans
      ⟨fun reach => (Cursor.isPlace_start t).reaches reach, Cursor.start_reaches⟩
  rw [Searcher.occursIn, Searcher.find?, Searcher.findFrom?, Option.isSome_map]
  constructor
  · intro found
    obtain ⟨⟨c, m⟩, eq⟩ := Option.isSome_iff_exists.1 found
    obtain ⟨mem, ends⟩ := (sound_searcher r .atOnce).firstMatch? eq
    exact ⟨c, m.stop, (places c).1 mem, matches_of_carries ends⟩
  · rintro ⟨c, d, place, ends⟩
    rw [Option.isSome_iff_ne_none]
    exact (complete_searcher t r).firstMatch?_ne_none (fun c mem => (places c).1 mem)
      ((places c).2 place) ends

/-! ## Ends of matches -/

/-- The end of a match is found by one of the searchers of the expression. -/
theorem matches_of_stopAt? (found : r.finder.stopAt? c = some d) : r.Matches c d := by
  obtain ⟨m, eager, found⟩ := Option.bind_eq_some_iff.1 found
  have ends := matches_of_carries ((sound_searcher r .atOnce).matchAt? eager)
  dsimp only at found
  split at found
  · obtain ⟨e, late, found⟩ := Option.bind_eq_some_iff.1 found
    obtain ⟨n, eq, rfl⟩ := Option.map_eq_some_iff.1 late
    have late_ends : r.Matches c n.stop := by
      split at eq
      · exact matches_of_carries ((sound_searcher r (.last true)).lateMatchAt? eq)
      · exact matches_of_carries ((sound_searcher r (.last false)).lateMatchAt? eq)
    obtain rfl := Option.some.inj found
    split
    · exact ends
    · exact late_ends
  · obtain rfl := Option.some.inj found
    exact ends

/-- Without conditions inside unbounded repetitions, conditions are settled at once. -/
theorem stopAt?_finder (simple : r.looksInLoop = false) :
    r.finder.stopAt? c = (r.searcher.matchAt? c).map (·.stop) := by
  change (r.searcher.matchAt? c).bind (fun m => if r.looksInLoop then _ else some m.stop) = _
  simp only [simple, Bool.false_eq_true, if_false]
  exact (Option.map_eq_bind ..).symm

/-- An expression that matches at a place of a text occurs in the text. -/
theorem occursIn_of_stopAt? (place : c.IsPlace t) (found : r.finder.stopAt? c = some d) :
    r.finder.occursIn t = true :=
  occursIn_iff.2 ⟨c, d, place, matches_of_stopAt? found⟩

end RulesText.Regex
