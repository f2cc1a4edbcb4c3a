import Std.Data.TreeSet.Lemmas
import RulesText.Proofs.Cursor
import RulesText.Regex.Searcher

/-!
# What a failed search has shown

A search that fails hands on the joins it has passed. At each of them something stands in the
way of a match: a condition on the passed joins, which says that the search has gone on from
there by all ways and failed at each. It may refer to joins that the search was still trying
when it came by, so only a search that has failed as a whole shows that nothing matches.

## Main definitions

* `Obstacle`: a condition on passed joins at a place, which is kept when more are passed.
* `Fails`: what is passed in between has the obstacles of its joins.
* `Next.Refutes`: going on from a place leaves an obstacle behind if it fails.
-/

namespace RulesText.Regex

/-! ## Passed joins -/

instance : Std.TransCmp Passage.order :=
  have : Std.TransCmp fun a b : Passage => compare a.join b.join :=
    inferInstanceAs (Std.TransCmp (compareOn Passage.join))
  have : Std.TransCmp fun a b : Passage => compare a.offset b.offset :=
    inferInstanceAs (Std.TransCmp (compareOn Passage.offset))
  have : Std.TransCmp fun a b : Passage => compare a.looked b.looked :=
    inferInstanceAs (Std.TransCmp (compareOn Passage.looked))
  inferInstanceAs (Std.TransCmp (compareLex _ (compareLex _ _)))

instance : Std.LawfulEqCmp Passage.order where
  eq_of_compare {a b} h := by
    obtain ⟨join, looked, offset⟩ := a
    obtain ⟨join', looked', offset'⟩ := b
    simp only [Passage.order, Ordering.then_eq_eq, Std.LawfulEqOrd.compare_eq_iff_eq] at h
    obtain ⟨rfl, rfl, rfl⟩ := h
    rfl

theorem mem_insert_iff {passed : Passed} {p q : Passage} :
    q ∈ passed.insert p ↔ q = p ∨ q ∈ passed := by
  rw [Std.TreeSet.mem_insert, Std.LawfulEqCmp.compare_eq_iff_eq, eq_comm]

/-- The join has been passed at the place. -/
def Tried (passed : Passed) (join : Nat) (c : Cursor) : Prop :=
  ⟨join, false, c.offset⟩ ∈ passed

/-- The second search has passed all joins of the first. -/
def Within (passed passed' : Passed) : Prop :=
  ∀ p ∈ passed, p ∈ passed'

theorem Within.refl (passed : Passed) : Within passed passed :=
  fun _ mem => mem

theorem Within.trans {p q r : Passed} (h : Within p q) (g : Within q r) : Within p r :=
  fun a mem => g a (h a mem)

theorem within_insert (passed : Passed) (p : Passage) : Within passed (passed.insert p) :=
  fun _ mem => mem_insert_iff.2 (.inr mem)

/-! ## Obstacles -/

structure Obstacle where
  holds : Passed → Cursor → Prop
  mono : ∀ {passed passed' c}, Within passed passed' → holds passed c → holds passed' c

namespace Obstacle

/-- The join has been passed. -/
def tried (join : Nat) : Obstacle where
  holds passed c := Tried passed join c
  mono within h := within _ h

def both (K L : Obstacle) : Obstacle where
  holds passed c := K.holds passed c ∧ L.holds passed c
  mono within h := ⟨K.mono within h.1, L.mono within h.2⟩

/-- An obstacle wherever a condition holds. -/
def given (p : Cursor → Prop) (K : Obstacle) : Obstacle where
  holds passed c := p c → K.holds passed c
  mono within h hc := K.mono within (h hc)

/-- An obstacle behind the next character, if that is in a set. -/
def behind (rule : CaseRule) (set : CharSet) (K : Obstacle) : Obstacle where
  holds passed c := ∀ x d, c.next? = some (x, d) → set.contains rule x = true → K.holds passed d
  mono within h x d next mem := K.mono within (h x d next mem)

/-- No search fails here. -/
def never : Obstacle where
  holds _ _ := False
  mono _ h := h

end Obstacle

/-- The obstacles at the joins of a searcher. -/
abbrev Rules := Nat → Obstacle

variable {t : Text} {rules : Rules} {K L : Obstacle} {passed passed' passed'' : Passed}
  {c d : Cursor} {join : Nat} {f g next : Next}

/-- At every join that is passed by then but was not before stands its obstacle. -/
structure Fails (t : Text) (rules : Rules) (passed passed' : Passed) : Prop where
  within : Within passed passed'
  holds : ∀ join c, c.IsPlace t → Tried passed' join c →
    Tried passed join c ∨ (rules join).holds passed' c

theorem Fails.refl (t : Text) (rules : Rules) (passed : Passed) : Fails t rules passed passed :=
  ⟨.refl passed, fun _ _ _ h => .inl h⟩

theorem Fails.trans (h : Fails t rules passed passed') (g : Fails t rules passed' passed'') :
    Fails t rules passed passed'' := by
  refine ⟨h.within.trans g.within, fun join c place tried => ?_⟩
  rcases g.holds join c place tried with tried | holds
  · rcases h.holds join c place tried with tried | holds
    · exact .inl tried
    · exact .inr ((rules join).mono g.within holds)
  · exact .inr holds

/-- At every passed join stands its obstacle. -/
def Closed (t : Text) (rules : Rules) (passed : Passed) : Prop :=
  ∀ join c, c.IsPlace t → Tried passed join c → (rules join).holds passed c

theorem Fails.closed (h : Fails t rules ∅ passed) : Closed t rules passed := by
  intro join c place tried
  rcases h.holds join c place tried with tried | holds
  · exact absurd tried Std.TreeSet.not_mem_emptyc
  · exact holds

namespace Next

/-- If `next` fails from `c` on, it leaves the obstacle `K` there. -/
def Refutes (t : Text) (rules : Rules) (next : Next) (K : Obstacle) (c : Cursor)
    (passed : Passed) : Prop :=
  ∀ m passed', m.stop = c → m.looked = false → next m passed = .error passed' →
    Fails t rules passed passed' ∧ K.holds passed' c

theorem Refutes.once (place : c.IsPlace t) (rule : rules join = K)
    (h : ¬Tried passed join c →
      Refutes t rules next K c (passed.insert ⟨join, false, c.offset⟩)) :
    Refutes t rules (once join next) (.tried join) c passed := by
  rintro m passed' rfl looked err
  simp only [Next.once, looked] at err
  split at err
  · rename_i before
    obtain rfl := Except.error.inj err
    exact ⟨.refl t rules passed, before⟩
  · rename_i new
    obtain ⟨fails, holds⟩ := h new m passed' rfl looked err
    have here : Tried passed' join m.stop := fails.within _ (mem_insert_iff.2 (.inl rfl))
    refine ⟨⟨(within_insert passed _).trans fails.within, fun join' d place' tried => ?_⟩, here⟩
    rcases fails.holds join' d place' tried with tried | holds'
    · rcases mem_insert_iff.1 tried with eq | tried
      · obtain ⟨rfl, -, same⟩ := Passage.mk.inj eq
        obtain rfl := place'.eq_of_offset place same
        exact .inr (rule ▸ holds)
      · exact .inl tried
    · exact .inr holds'

theorem Refutes.orElse (hf : Refutes t rules f K c passed)
    (hg : ∀ passed', Within passed passed' → Refutes t rules g L c passed') :
    Refutes t rules (orElse f g) (K.both L) c passed := by
  intro m passed' eq looked err
  simp only [Next.orElse] at err
  cases first : f m passed with
  | ok r =>
    rw [first] at err
    cases (show Except.ok r = Except.error passed' from err)
  | error middle =>
    rw [first] at err
    obtain ⟨fails, holds⟩ := hf m middle eq looked first
    obtain ⟨fails', holds'⟩ := hg middle fails.within m passed' eq looked err
    exact ⟨fails.trans fails', K.mono fails'.within holds, holds'⟩

end Next

end RulesText.Regex
