import RulesText.Proofs.Regex.Combinators
import RulesText.Proofs.Regex.Matching
import RulesText.Proofs.Regex.Obstacles

/-!
# Matches that a search cannot miss

Where conditions are settled at once, a search that fails has come by every way through the
expression: each way ends at an obstacle, and the obstacles at the passed joins lead on to each
other until the end of the expression. So there is no match.

## Main definitions

* `Regex.Searcher.Explains`: what an obstacle before a searcher says about the one behind it.
* `Regex.Searcher.Complete`: a searcher comes by every match of a relation.
-/

namespace RulesText

open Ends (Rounds Forward)

namespace Regex.Searcher

open Next (Refutes)

/-- If the search behind the searcher fails with the obstacle `K`, the search before it fails with
the obstacle `stuck`; and if nothing but obstacles is left, `stuck` at the beginning of a match
means `K` at its end. -/
structure Explains (t : Text) (rules : Rules) (s : Searcher) (M : Ends Cursor) (join : Nat)
    (K stuck : Obstacle) : Prop where
  refutes : ∀ limit next c passed, c.IsPlace t → c.ahead.length ≤ limit.length →
    (∀ d passed', M c d → Within passed passed' → Refutes t rules next K d passed') →
    Refutes t rules (s.follow limit join next) stuck c passed
  resolves : ∀ passed c d, Closed t rules passed → c.IsPlace t → M c d →
    stuck.holds passed c → K.holds passed d

/-- Whatever obstacle is behind the searcher, there is one before it, with obstacles at the
joins of the searcher. -/
def Complete (t : Text) (s : Searcher) (M : Ends Cursor) : Prop :=
  ∀ join K, ∃ (stuck : Obstacle) (own : Rules), ∀ rules : Rules,
    Agrees rules own join s.joins → Explains t rules s M join K stuck

variable {t : Text} {M N : Ends Cursor} {s body first second : Searcher}

theorem Complete.congr (h : Complete t s M) (eq : ∀ c d, M c d ↔ N c d) : Complete t s N := by
  have : M = N := funext fun c => funext fun d => propext (eq c d)
  exact this ▸ h

/-! ## Single steps -/

theorem complete_empty (t : Text) : Complete t .empty fun c d => d = c := by
  refine fun join K => ⟨K, fun _ => K, fun rules _ => ⟨?_, ?_⟩⟩
  · exact fun limit next c passed _ _ h => h c passed rfl (.refl passed)
  · rintro passed c _ - - rfl holds
    exact holds

theorem complete_one (t : Text) (rule : CaseRule) (set : CharSet) :
    Complete t (.one rule set .atOnce)
      fun c d => ∃ x, c.next? = some (x, d) ∧ set.contains rule x = true := by
  refine fun join K => ⟨.behind rule set K, fun _ => K, fun rules _ => ⟨?_, ?_⟩⟩
  · rintro limit next c passed place le h m passed' rfl looked err
    simp only [one, take] at err
    split at err
    · rename_i x stop eq
      split at err
      · rename_i mem
        obtain ⟨fails, holds⟩ :=
          h stop passed ⟨x, eq, mem⟩ (.refl passed) { m with stop } passed' rfl looked err
        refine ⟨fails, fun y d eq' _ => ?_⟩
        obtain ⟨-, rfl⟩ := Cursor.next?_inj eq eq'
        exact holds
      · rename_i not
        obtain rfl := Except.error.inj err
        refine ⟨.refl t rules passed, fun y d eq' mem => ?_⟩
        obtain ⟨rfl, -⟩ := Cursor.next?_inj eq eq'
        exact absurd mem not
    · rename_i none
      obtain rfl := Except.error.inj err
      refine ⟨.refl t rules passed, fun y d eq' _ => ?_⟩
      rw [none] at eq'
      contradiction
  · rintro passed c d - - ⟨x, eq, mem⟩ holds
    exact holds x d eq mem

theorem complete_look (t : Text) (condition : Look) :
    Complete t (.look condition .atOnce) fun c d => condition.holds c = true ∧ d = c := by
  refine fun join K => ⟨.given (condition.holds · = true) K, fun _ => K, fun rules _ => ⟨?_, ?_⟩⟩
  · rintro limit next c passed place le h m passed' rfl looked err
    simp only [look] at err
    split at err
    · rename_i holds
      obtain ⟨fails, obstacle⟩ :=
        h m.stop passed ⟨holds, rfl⟩ (.refl passed) m passed' rfl looked err
      exact ⟨fails, fun _ => obstacle⟩
    · rename_i not
      obtain rfl := Except.error.inj err
      exact ⟨.refl t rules passed, fun holds => absurd holds not⟩
  · rintro passed c _ - - ⟨holds, rfl⟩ obstacle
    exact obstacle holds

theorem Complete.capture (h : Complete t body M) (name : Text) :
    Complete t (capture name body) M := by
  intro join K
  obtain ⟨stuck, own, explains⟩ := h join K
  refine ⟨stuck, own, fun rules agree => ⟨?_, (explains rules agree).resolves⟩⟩
  intro limit next c passed place le hn m
  refine (explains rules agree).refutes limit _ c passed place le ?_ m
  intro d passed' ends within n passed'' eq looked err
  exact hn d passed' ends within (n.capture name m.stop) passed'' eq looked err

/-! ## Combinations -/

theorem Complete.seq (h₁ : Complete t first M) (forward : M.Forward) (h₂ : Complete t second N) :
    Complete t (seq first second) fun c d => ∃ e, M c e ∧ N e d := by
  intro join K
  obtain ⟨middle, own₂, explains₂⟩ := h₂ (join + first.joins) K
  obtain ⟨stuck, own₁, explains₁⟩ := h₁ join middle
  refine ⟨stuck, splice (join + first.joins) own₁ own₂, fun rules agree => ?_⟩
  have e₁ := explains₁ rules agree.front
  have e₂ := explains₂ rules agree.back
  refine ⟨?_, ?_⟩
  · intro limit next c passed place le h
    refine e₁.refutes limit _ c passed place le fun e passed' front within => ?_
    have reach := forward c e front
    refine e₂.refutes limit next e passed' (place.reaches reach)
      (Nat.le_trans reach.length_le le) fun d passed'' back within' => ?_
    exact h d passed'' ⟨e, front, back⟩ (within.trans within')
  · rintro passed c d closed place ⟨e, front, back⟩ holds
    exact e₂.resolves passed e d closed (place.reaches (forward c e front)) back
      (e₁.resolves passed c e closed place front holds)

theorem Complete.choice (h₁ : Complete t first M) (h₂ : Complete t second N) :
    Complete t (choice first second) fun c d => M c d ∨ N c d := by
  intro join K
  obtain ⟨stuck₁, own₁, explains₁⟩ := h₁ join K
  obtain ⟨stuck₂, own₂, explains₂⟩ := h₂ (join + first.joins) K
  refine ⟨stuck₁.both stuck₂, splice (join + first.joins) own₁ own₂, fun rules agree => ?_⟩
  have e₁ := explains₁ rules agree.front
  have e₂ := explains₂ rules agree.back
  refine ⟨?_, ?_⟩
  · intro limit next c passed place le h
    refine Refutes.orElse ?_ fun passed' within => ?_
    · exact e₁.refutes limit next c passed place le fun d passed' ends => h d passed' (.inl ends)
    · exact e₂.refutes limit next c passed' place le fun d passed'' ends within' =>
        h d passed'' (.inr ends) (within.trans within')
  · rintro passed c d closed place (ends | ends) ⟨holds₁, holds₂⟩
    · exact e₁.resolves passed c d closed place ends holds₁
    · exact e₂.resolves passed c d closed place ends holds₂

/-- At the join behind the searcher stands the obstacle of what follows. -/
theorem Complete.joined (h : Complete t s M) (forward : M.Forward) :
    Complete t (joined s) M := by
  intro join K
  obtain ⟨stuck, own, explains⟩ := h join (.tried (join + s.joins))
  refine ⟨stuck, splice (join + s.joins) own fun _ => K, fun rules agree => ?_⟩
  have e := explains rules agree.front
  have rule : rules (join + s.joins) = K := agree.back.head
  refine ⟨?_, ?_⟩
  · intro limit next c passed place le hn
    refine e.refutes limit _ c passed place le fun d passed' ends within => ?_
    exact Refutes.once (place.reaches (forward c d ends)) rule fun _ =>
      hn d _ ends (within.trans (within_insert passed' _))
  · intro passed c d closed place ends holds
    rw [← rule]
    exact closed _ d (place.reaches (forward c d ends))
      (e.resolves passed c d closed place ends holds)

theorem Complete.alt (h₁ : Complete t first M) (h₂ : Complete t second N)
    (forward₁ : M.Forward) (forward₂ : N.Forward) :
    Complete t (alt first second) fun c d => M c d ∨ N c d := by
  rw [alt_eq]
  refine (h₁.choice h₂).joined ?_
  rintro c d (ends | ends)
  · exact forward₁ c d ends
  · exact forward₂ c d ends

/-! ## Bounded repetitions -/

theorem Complete.times (h : Complete t body M) (forward : M.Forward) (n : Nat) :
    Complete t (times n body) (Rounds M n) := by
  induction n with
  | zero =>
    rw [times_zero]
    exact complete_empty t
  | succ n ih =>
    rw [times_succ]
    exact h.seq forward ih

theorem Complete.optional (h : Complete t body M) (forward : M.Forward) (greedy : Bool) :
    Complete t (optional greedy body) fun c d => d = c ∨ M c d := by
  have forward_empty : Forward fun c d => d = c := fun c _ eq => eq ▸ .refl c
  cases greedy with
  | true => exact (h.alt (complete_empty t) forward forward_empty).congr fun _ _ => Or.comm
  | false => exact (complete_empty t).alt h forward_empty forward

theorem Complete.rounds (h : Complete t body M) (forward : M.Forward) (greedy : Bool)
    (n : Nat) : Complete t (rounds greedy n body) fun c d => ∃ k ≤ n, Rounds M k c d := by
  induction n with
  | zero =>
    rw [rounds_zero]
    refine (complete_empty t).congr fun c d => ?_
    simp [Rounds]
  | succ n ih =>
    have again := h.seq forward ih
    rw [rounds_succ]
    cases greedy with
    | true =>
      exact (again.choice (complete_empty t)).congr fun _ _ =>
        Or.comm.trans Ends.rounds_succ_iff.symm
    | false =>
      exact ((complete_empty t).choice again).congr fun _ _ => Ends.rounds_succ_iff.symm

theorem Complete.upTo (h : Complete t body M) (forward : M.Forward) (greedy : Bool) (n : Nat) :
    Complete t (upTo greedy n body) fun c d => ∃ k ≤ n, Rounds M k c d := by
  rw [upTo_eq]
  refine (h.rounds forward greedy n).joined ?_
  rintro c d ⟨k, -, rounds⟩
  exact forward.rounds c d rounds

/-! ## Unbounded repetitions -/

theorem Refutes.either {t : Text} {rules : Rules} {f g : Next} {K L : Obstacle} {c : Cursor}
    {passed : Passed} (hf : ∀ passed', Within passed passed' → Refutes t rules f K c passed')
    (hg : ∀ passed', Within passed passed' → Refutes t rules g L c passed') (greedy : Bool) :
    Refutes t rules (if greedy then Next.orElse f g else Next.orElse g f) (K.both L) c
      passed := by
  cases greedy with
  | true => exact Refutes.orElse (hf passed (.refl passed)) hg
  | false =>
    intro m passed' eq looked err
    obtain ⟨fails, holds⟩ :=
      Refutes.orElse (hg passed (.refl passed)) hf m passed' eq looked err
    exact ⟨fails, holds.2, holds.1⟩

section

variable {rules : Rules} {K stuck : Obstacle} {round : Next → Next} {bound : Nat} {limit : Text}

/-- A round that takes something comes to a later place, where there are fewer rounds left. -/
theorem refutes_followRounds {join : Nat} (greedy : Bool)
    (rule : rules join = K.both (.given (·.ahead ≠ []) stuck))
    (forward : M.Forward) (progress : ∀ c d, M c d → d.ahead.length < c.ahead.length)
    (body : ∀ next c passed, c.IsPlace t → c.ahead.length ≤ bound →
      (∀ d passed', M c d → Within passed passed' → Refutes t rules next (.tried join) d passed') →
      Refutes t rules (round next) stuck c passed)
    (next : Next) {c : Cursor} {passed : Passed} (place : c.IsPlace t)
    (le : c.ahead.length ≤ bound) (enough : c.ahead.length ≤ limit.length)
    (h : ∀ d passed', (∃ k, Rounds M k c d) → Within passed passed' →
      Refutes t rules next K d passed') :
    Refutes t rules (followRounds greedy round join next limit) (.tried join) c passed := by
  induction limit generalizing c passed with
  | nil =>
    refine Refutes.once place rule fun _ => ?_
    intro m passed' eq looked err
    obtain ⟨fails, holds⟩ := h c _ ⟨0, rfl⟩ (within_insert passed _) m passed' eq looked err
    have atEnd : c.ahead = [] := List.length_eq_zero_iff.1 (Nat.le_zero.1 enough)
    exact ⟨fails, holds, fun ne => absurd atEnd ne⟩
  | cons x limit ih =>
    refine Refutes.once place rule fun _ => ?_
    have stop : ∀ passed', Within (passed.insert ⟨join, false, c.offset⟩) passed' →
        Refutes t rules next K c passed' :=
      fun passed' within => h c passed' ⟨0, rfl⟩ ((within_insert passed _).trans within)
    have again : ∀ passed', Within (passed.insert ⟨join, false, c.offset⟩) passed' →
        Refutes t rules (round (followRounds greedy round join next limit)) stuck c passed' := by
      intro passed' within
      refine body _ c passed' place le fun d passed'' first within' => ?_
      have lt := progress c d first
      rw [List.length_cons] at enough
      refine ih (place.reaches (forward c d first)) (by omega) (by omega)
        fun e passed₃ ⟨k, rest⟩ within'' => ?_
      exact h e passed₃ ⟨k + 1, d, first, rest⟩
        (((within_insert passed _).trans within).trans (within'.trans within''))
    intro m passed' eq looked err
    obtain ⟨fails, holds⟩ := Refutes.either again stop greedy m passed' eq looked err
    exact ⟨fails, holds.2, fun _ => holds.1⟩

/-- A round that comes back to where it began finds the join there passed; any other comes to a
later place, where there are fewer rounds left. -/
theorem refutes_followLoop {first : Nat} (greedy : Bool) (rule_first : rules first = stuck)
    (rule_second : rules (first + 1) = (Obstacle.tried first).both K) (forward : M.Forward)
    (body : ∀ next c passed, c.IsPlace t → c.ahead.length ≤ bound →
      (∀ d passed', M c d → Within passed passed' →
        Refutes t rules next (.tried (first + 1)) d passed') →
      Refutes t rules (round next) stuck c passed)
    (next : Next) {c : Cursor} {passed : Passed} (place : c.IsPlace t)
    (le : c.ahead.length ≤ bound)
    (enough : Tried passed first c ∨ c.ahead.length ≤ limit.length)
    (h : ∀ d passed', (∃ k, Rounds M (k + 1) c d) → Within passed passed' →
      Refutes t rules next K d passed') :
    Refutes t rules (followLoop greedy round first next limit) (.tried first) c passed := by
  induction limit generalizing c passed with
  | nil =>
    refine Refutes.once place rule_first fun new => body _ c _ place le ?_
    intro d passed' once within
    refine Refutes.once (place.reaches (forward c d once)) rule_second fun _ => ?_
    intro m passed'' eq looked err
    have within' := within.trans (within_insert passed' ⟨first + 1, false, d.offset⟩)
    obtain ⟨fails, holds⟩ := h d _ ⟨0, .one once⟩ ((within_insert passed _).trans within') m
      passed'' eq looked err
    -- at the end of the text every round comes back to its beginning
    have same : d = c := (forward c d once).eq_of_length_le <| by
      have := enough.resolve_left new
      rw [List.length_nil] at this
      omega
    refine ⟨fails, ?_, holds⟩
    rw [same]
    exact (within'.trans fails.within) _ (mem_insert_iff.2 (.inl rfl))
  | cons x limit ih =>
    refine Refutes.once place rule_first fun new => body _ c _ place le ?_
    intro d passed' once within
    have reach := forward c d once
    refine Refutes.once (place.reaches reach) rule_second fun _ => ?_
    have within' := within.trans (within_insert passed' ⟨first + 1, false, d.offset⟩)
    refine Refutes.either (fun passed'' later => ?_) (fun passed'' later => ?_) greedy
    · refine ih (place.reaches reach) (Nat.le_trans reach.length_le le) ?_
        fun e passed₃ ⟨k, rest⟩ later' => ?_
      · by_cases back : c.ahead.length ≤ d.ahead.length
        · obtain rfl := reach.eq_of_length_le back
          exact .inl (within'.trans later _ (mem_insert_iff.2 (.inl rfl)))
        · have := enough.resolve_left new
          rw [List.length_cons] at this
          exact .inr (by omega)
      · exact h e passed₃ ⟨k + 1, d, once, rest⟩
          ((within_insert passed _).trans ((within'.trans later).trans later'))
    · exact h d passed'' ⟨0, .one once⟩ ((within_insert passed _).trans (within'.trans later))

end

theorem Complete.progressive (h : Complete t body M) (forward : M.Forward)
    (progress : ∀ c d, M c d → d.ahead.length < c.ahead.length) (greedy : Bool) :
    Complete t (progressive greedy body) fun c d => ∃ k, Rounds M k c d := by
  intro join K
  obtain ⟨stuck, own, explains⟩ := h join (.tried (join + body.joins))
  refine ⟨.tried (join + body.joins),
    splice (join + body.joins) own fun _ => K.both (.given (·.ahead ≠ []) stuck),
    fun rules agree => ?_⟩
  have e := explains rules agree.front
  have rule : rules (join + body.joins) = K.both (.given (·.ahead ≠ []) stuck) :=
    agree.back.head
  refine ⟨?_, ?_⟩
  · intro limit next c passed place le hn
    exact refutes_followRounds greedy rule forward progress (e.refutes limit) next place le le hn
  · rintro passed c d closed place ⟨k, rounds⟩ tried
    induction k generalizing c with
    | zero =>
      obtain rfl := rounds
      have holds := closed _ d place tried
      rw [rule] at holds
      exact holds.1
    | succ k ih =>
      obtain ⟨f, first, rest⟩ := rounds
      have holds := closed _ c place tried
      rw [rule] at holds
      have nonempty : c.ahead ≠ [] := fun nil => by
        have := progress c f first
        simp [nil] at this
      exact ih f (place.reaches (forward c f first)) rest
        (e.resolves passed c f closed place first (holds.2 nonempty))

theorem Complete.oneOrMore (h : Complete t body M) (forward : M.Forward) (greedy : Bool) :
    Complete t (oneOrMore greedy body) fun c d => ∃ k, Rounds M (k + 1) c d := by
  intro join K
  obtain ⟨stuck, own, explains⟩ := h join (.tried (join + body.joins + 1))
  refine ⟨.tried (join + body.joins),
    splice (join + body.joins) own (splice (join + body.joins + 1) (fun _ => stuck)
      fun _ => (Obstacle.tried (join + body.joins)).both K),
    fun rules agree => ?_⟩
  have e := explains rules agree.front
  have rules_behind := agree.back (n := 2)
  have rule_first : rules (join + body.joins) = stuck := (rules_behind.front (m := 1) (n := 1)).head
  have rule_second : rules (join + body.joins + 1) =
      (Obstacle.tried (join + body.joins)).both K :=
    (rules_behind.back (m := 1) (n := 1)).head
  refine ⟨?_, ?_⟩
  · intro limit next c passed place le hn
    exact refutes_followLoop greedy rule_first rule_second forward (e.refutes limit) next place
      le (.inr le) hn
  · rintro passed c d closed place ⟨k, rounds⟩ tried
    induction k generalizing c with
    | zero =>
      obtain ⟨f, once, rfl⟩ := rounds
      have at_first := closed _ c place tried
      rw [rule_first] at at_first
      have at_second := closed _ d (place.reaches (forward c d once))
        (e.resolves passed c d closed place once at_first)
      rw [rule_second] at at_second
      exact at_second.2
    | succ k ih =>
      obtain ⟨f, once, rest⟩ := rounds
      have place' := place.reaches (forward c f once)
      have at_first := closed _ c place tried
      rw [rule_first] at at_first
      have at_second := closed _ f place' (e.resolves passed c f closed place once at_first)
      rw [rule_second] at at_second
      exact ih f place' rest at_second.1

theorem Complete.repetition (h : Complete t body M) (forward : M.Forward) (greedy : Bool)
    {takesSomething : Bool}
    (progress : takesSomething = true → ∀ c d, M c d → d.ahead.length < c.ahead.length)
    (least : Nat) (most : Option Nat) :
    Complete t (repetition greedy takesSomething body least most) (M.Between least most) := by
  match least, most with
  | least, some most =>
    exact ((h.times forward least).seq forward.rounds (h.upTo forward greedy (most - least))).congr
      fun _ _ => Ends.between_some_iff.symm
  | 0, none =>
    cases takesSomething with
    | true =>
      refine (h.progressive forward (progress rfl) greedy).congr fun c d => ?_
      rw [Ends.between_none_iff]
      simp [Rounds]
    | false =>
      have forward' : Forward fun c d => ∃ k, Rounds M (k + 1) c d :=
        fun c d ⟨_, rounds⟩ => forward.rounds c d rounds
      exact ((h.oneOrMore forward greedy).optional forward' greedy).congr
        fun _ _ => Ends.between_zero_none_iff.symm
  | least + 1, none =>
    exact ((h.times forward least).seq forward.rounds (h.oneOrMore forward greedy)).congr
      fun _ _ => Ends.between_succ_none_iff.symm

end Regex.Searcher

/-- Where conditions are settled at once, a search comes by every match of the expression. -/
theorem Regex.complete_searcher (t : Text) (r : Regex) :
    (r.searcher .atOnce).Complete t r.Matches := by
  induction r with
  | empty => exact Searcher.complete_empty t
  | one rule set => exact Searcher.complete_one t rule set
  | look condition => exact Searcher.complete_look t condition
  | group name? body ih =>
    cases name? with
    | none => exact ih
    | some name => exact ih.capture name
  | seq first second ih₁ ih₂ => exact ih₁.seq (matches_forward first) ih₂
  | alt preferred other ih₁ ih₂ =>
    exact ih₁.alt ih₂ (matches_forward preferred) (matches_forward other)
  | repetition body least most greedy ih =>
    exact ih.repetition (matches_forward body) greedy
      (fun takes _ _ => length_lt_of_takesSomething takes) least most

end RulesText
