import RulesText.Proofs.Regex.Combinators
import RulesText.Proofs.Regex.Matching

/-!
# What searches find

A search that ends with a match has gone through a match of the expression, whenever conditions
are settled.

## Main definitions

* `Regex.Next.Leads`: going on one way comes to another through a match of a relation.
* `Regex.Searcher.Sound`: a searcher goes through matches only.
-/

namespace RulesText

open Ends (Rounds)

namespace Regex

theorem Look.holds_of_holdsBehind {condition : Look} {c : Cursor}
    (h : condition.holdsBehind c = true) : condition.holds c = true := by
  cases condition with
  | textStart => exact h
  | textEnd => simp [holdsBehind] at h
  | lineStart r =>
    rw [holds, atLineStart]
    rw [holdsBehind] at h
    rw [h, Bool.true_or]
  | lineEnd r => simp [holdsBehind] at h
  | word r w => cases w <;> simp_all [holdsBehind, holds, WordLook.holds]

namespace Next

/-- Where `g` ends with a match, `next` has ended with it, at the end of a match of `M`. -/
def Leads (M : Ends Match) (g next : Next) : Prop :=
  ∀ m passed r, g m passed = .ok r → ∃ n passed', M m n ∧ next n passed' = .ok r

variable {M N : Ends Match} {f g next : Next}

theorem Leads.refl (next : Next) : Leads (fun c d => d = c) next next :=
  fun m passed _ ok => ⟨m, passed, rfl, ok⟩

theorem Leads.trans (h : Leads M f g) (h' : Leads N g next) :
    Leads (fun c d => ∃ e, M c e ∧ N e d) f next := by
  intro m passed r ok
  obtain ⟨n, passed', first, ok'⟩ := h m passed r ok
  obtain ⟨l, passed'', second, ok''⟩ := h' n passed' r ok'
  exact ⟨l, passed'', ⟨n, first, second⟩, ok''⟩

theorem Leads.imp (h : Leads M g next) (sub : ∀ c d, M c d → N c d) : Leads N g next := by
  intro m passed r ok
  obtain ⟨n, passed', ends, ok'⟩ := h m passed r ok
  exact ⟨n, passed', sub _ _ ends, ok'⟩

theorem Leads.once (h : Leads M g next) (join : Nat) : Leads M (once join g) next := by
  intro m passed r ok
  simp only [Next.once] at ok
  split at ok
  · simp at ok
  · exact h m _ r ok

theorem Leads.of_once {join : Nat} (h : Leads M g (Next.once join next)) : Leads M g next := by
  intro m passed r ok
  obtain ⟨n, passed', ends, ok⟩ := h m passed r ok
  obtain ⟨l, passed'', same, ok⟩ := (Leads.refl next).once join n passed' r ok
  exact ⟨l, passed'', same ▸ ends, ok⟩

theorem Leads.orElse (hf : Leads M f next) (hg : Leads M g next) :
    Leads M (orElse f g) next := by
  intro m passed r ok
  simp only [Next.orElse] at ok
  cases first : f m passed with
  | ok r' =>
    rw [first] at ok
    exact hf m passed r (first.trans ok)
  | error passed' =>
    rw [first] at ok
    exact hg m passed' r ok

theorem Leads.choice (hf : Leads M f next) (hg : Leads M g next) (greedy : Bool) :
    Leads M (if greedy then Next.orElse f g else Next.orElse g f) next := by
  cases greedy with
  | true => exact hf.orElse hg
  | false => exact hg.orElse hf

end Next

namespace Searcher

open Next (Leads)

/-- The searcher goes through matches of `M` only. -/
def Sound (s : Searcher) (M : Ends Match) : Prop :=
  ∀ limit join next, Leads M (s.follow limit join next) next

variable {M N : Ends Match} {s body first second : Searcher}

theorem sound_empty : Sound .empty fun c d => d = c :=
  fun _ _ next => .refl next

theorem sound_one (rule : CaseRule) (set : CharSet) (settling : Settling) :
    Sound (.one rule set settling) (Regex.one rule set).Carries := by
  have take : ∀ next, Leads (Regex.one rule set).Carries (take rule set next) next := by
    intro next m passed r ok
    rw [Searcher.take] at ok
    split at ok
    · rename_i x stop eq
      split at ok
      · rename_i mem
        exact ⟨{ m with stop }, passed, ⟨⟨x, eq, mem⟩, rfl⟩, ok⟩
      · simp at ok
    · simp at ok
  intro limit join next
  cases settling with
  | atOnce => exact take next
  | last again =>
    intro m passed r ok
    exact (take next).once join { m with looked := false } passed r ok

theorem sound_look (condition : Look) (settling : Settling) :
    Sound (.look condition settling) (Regex.look condition).Carries := by
  intro limit join next m passed r ok
  cases settling with
  | atOnce =>
    simp only [look] at ok
    split at ok
    · rename_i holds
      exact ⟨m, passed, ⟨holds, rfl, rfl⟩, ok⟩
    · simp at ok
  | last again =>
    have late : Leads (fun m n => n.stop = m.stop ∧ n.groups = m.groups)
        (fun m => Next.once join next { m with looked := true }) next := by
      intro m passed r ok
      obtain ⟨n, passed', rfl, ok⟩ := (Leads.refl next).once join { m with looked := true } _ r ok
      exact ⟨{ m with looked := true }, passed', ⟨rfl, rfl⟩, ok⟩
    have stay : Leads (fun m n => n.stop = m.stop ∧ n.groups = m.groups) next next :=
      (Leads.refl next).imp fun m n eq => eq ▸ ⟨rfl, rfl⟩
    simp only [look] at ok
    split at ok
    · rename_i behind
      rw [Bool.and_eq_true] at behind
      have holds := Look.holds_of_holdsBehind behind.1
      split at ok
      · obtain ⟨n, passed', same, ok⟩ := late.orElse stay m passed r ok
        exact ⟨n, passed', ⟨holds, same⟩, ok⟩
      · exact ⟨m, passed, ⟨holds, rfl, rfl⟩, ok⟩
    · split at ok
      · rename_i holds
        obtain ⟨n, passed', same, ok⟩ := late m passed r ok
        exact ⟨n, passed', ⟨holds, same⟩, ok⟩
      · simp at ok

theorem Sound.capture (h : body.Sound M) (name : Text) :
    (capture name body).Sound fun m n => ∃ e, M m e ∧ n = e.capture name m.stop := by
  intro limit join next m passed r ok
  obtain ⟨n, passed', ends, ok⟩ := h limit join _ m passed r ok
  exact ⟨n.capture name m.stop, passed', ⟨n, ends, rfl⟩, ok⟩

theorem Sound.seq (h₁ : first.Sound M) (h₂ : second.Sound N) :
    (seq first second).Sound fun c d => ∃ e, M c e ∧ N e d :=
  fun limit join next => (h₁ limit join _).trans (h₂ limit (join + first.joins) next)

theorem Sound.imp (h : s.Sound M) (sub : ∀ c d, M c d → N c d) : s.Sound N :=
  fun limit join next => (h limit join next).imp sub

theorem Sound.choice (h₁ : first.Sound M) (h₂ : second.Sound N) :
    (choice first second).Sound fun c d => M c d ∨ N c d :=
  fun limit join next => ((h₁ limit join next).imp fun _ _ => .inl).orElse
    ((h₂ limit (join + first.joins) next).imp fun _ _ => .inr)

theorem Sound.joined (h : s.Sound M) : (joined s).Sound M :=
  fun limit join _ => (h limit join _).of_once

theorem Sound.alt (h₁ : first.Sound M) (h₂ : second.Sound N) :
    (alt first second).Sound fun c d => M c d ∨ N c d := by
  rw [alt_eq]
  exact (h₁.choice h₂).joined

/-! ## Repetitions -/

theorem Sound.times (h : body.Sound M) (n : Nat) : (times n body).Sound (Rounds M n) := by
  induction n with
  | zero =>
    rw [times_zero]
    exact sound_empty
  | succ n ih =>
    rw [times_succ]
    exact h.seq ih

theorem Sound.optional (h : body.Sound M) (greedy : Bool) :
    (optional greedy body).Sound fun c d => d = c ∨ M c d := by
  cases greedy with
  | true => exact (h.alt sound_empty).imp fun _ _ => Or.symm
  | false => exact sound_empty.alt h

theorem Sound.rounds (h : body.Sound M) (greedy : Bool) (n : Nat) :
    (rounds greedy n body).Sound fun c d => ∃ k ≤ n, Rounds M k c d := by
  induction n with
  | zero =>
    rw [rounds_zero]
    exact sound_empty.imp fun c d eq => ⟨0, Nat.le_refl 0, eq⟩
  | succ n ih =>
    have again := h.seq ih
    rw [rounds_succ]
    cases greedy with
    | true => exact (again.choice sound_empty).imp fun _ _ ends => Ends.rounds_succ_iff.2 ends.symm
    | false => exact (sound_empty.choice again).imp fun _ _ => Ends.rounds_succ_iff.2

theorem Sound.upTo (h : body.Sound M) (greedy : Bool) (n : Nat) :
    (upTo greedy n body).Sound fun c d => ∃ k ≤ n, Rounds M k c d := by
  rw [upTo_eq]
  exact (h.rounds greedy n).joined

theorem leads_followLoop {round : Next → Next} (h : ∀ next, Leads M (round next) next)
    (greedy : Bool) (first : Nat) (next : Next) (limit : Text) :
    Leads (fun c d => ∃ k, Rounds M (k + 1) c d) (followLoop greedy round first next limit)
      next := by
  induction limit with
  | nil =>
    exact (((h _).of_once).imp fun c d ends => ⟨0, .one ends⟩).once first
  | cons x limit ih =>
    have more : Leads (fun c d => ∃ k, Rounds M k c d)
        (if greedy then Next.orElse (followLoop greedy round first next limit) next
          else Next.orElse next (followLoop greedy round first next limit)) next := by
      refine Leads.choice ?_ ?_ greedy
      · exact ih.imp fun c d ⟨k, rounds⟩ => ⟨k + 1, rounds⟩
      · exact (Leads.refl next).imp fun c d eq => ⟨0, eq⟩
    refine Leads.once (((h _).of_once.trans more).imp ?_) first
    rintro c d ⟨e, front, k, rest⟩
    exact ⟨k, e, front, rest⟩

theorem Sound.oneOrMore (h : body.Sound M) (greedy : Bool) :
    (oneOrMore greedy body).Sound fun c d => ∃ k, Rounds M (k + 1) c d :=
  fun limit join next =>
    leads_followLoop (h limit join) greedy (join + body.joins) next limit

theorem leads_followRounds {round : Next → Next} (h : ∀ next, Leads M (round next) next)
    (greedy : Bool) (join : Nat) (next : Next) (limit : Text) :
    Leads (fun c d => ∃ k, Rounds M k c d) (followRounds greedy round join next limit)
      next := by
  have stop : Leads (fun c d => ∃ k, Rounds M k c d) next next :=
    (Leads.refl next).imp fun c d eq => ⟨0, eq⟩
  induction limit with
  | nil => exact stop.once join
  | cons x limit ih =>
    refine Leads.once (Leads.choice (((h _).trans ih).imp ?_) stop greedy) join
    rintro c d ⟨e, front, k, rest⟩
    exact ⟨k + 1, e, front, rest⟩

theorem Sound.progressive (h : body.Sound M) (greedy : Bool) :
    (progressive greedy body).Sound fun c d => ∃ k, Rounds M k c d :=
  fun limit join next =>
    leads_followRounds (h limit join) greedy (join + body.joins) next limit

theorem Sound.repetition (h : body.Sound M) (greedy takesSomething : Bool) (least : Nat)
    (most : Option Nat) : (repetition greedy takesSomething body least most).Sound
      (M.Between least most) := by
  intro limit join next
  match least, most with
  | least, some most =>
    exact (((h.times least).seq (h.upTo greedy (most - least))) limit join next).imp
      fun _ _ => Ends.between_some_iff.2
  | 0, none =>
    cases takesSomething with
    | true =>
      exact (h.progressive greedy limit join next).imp
        fun c d ends => Ends.between_none_iff.2 ⟨c, rfl, ends⟩
    | false =>
      exact ((h.oneOrMore greedy).optional greedy limit join next).imp
        fun _ _ => Ends.between_zero_none_iff.2
  | least + 1, none =>
    exact (((h.times least).seq (h.oneOrMore greedy)) limit join next).imp
      fun _ _ => Ends.between_succ_none_iff.2

end Searcher

/-- A search that ends with a match has gone a way through the expression. -/
theorem sound_searcher (r : Regex) (settling : Settling) :
    (r.searcher settling).Sound r.Carries := by
  induction r with
  | empty => exact Searcher.sound_empty
  | one rule set => exact Searcher.sound_one rule set settling
  | look condition => exact Searcher.sound_look condition settling
  | group name? body ih =>
    cases name? with
    | none => exact ih
    | some name => exact ih.capture name
  | seq first second ih₁ ih₂ => exact ih₁.seq ih₂
  | alt preferred other ih₁ ih₂ => exact ih₁.alt ih₂
  | repetition body least most greedy ih =>
    exact ih.repetition greedy body.takesSomething least most

end Regex

end RulesText
