import RulesText.Proofs.Regex.Completeness
import RulesText.Proofs.Regex.Search
import RulesText.Proofs.Regex.Ways

/-!
# A search finds the first way

A search goes on from a join only once at each place. A join that has been passed leads nowhere,
unless the search is still trying to go on from it, and then the search has come ahead since, so
that it will not meet the join at this place again. So what is cut off holds no match, and the
match that is found is the first of all ways.

## Main definitions

* `Regex.Verdicts`: from which places a join leads nowhere.
* `Regex.Next.Prefers`: a search from a place on finds the first of the given matches.
* `Regex.Searcher.Ordered`: a searcher follows the given ways in their order.

## Main statements

* `Regex.matchAt?_eq_head?`: the match that is found is the first of all ways.
-/

namespace RulesText.Regex

open Ends (Rounds Forward)
open Ways (Follows arrange)

/-- The places from which each join leads nowhere. -/
abbrev Verdicts := Nat → Cursor → Prop

variable {t : Text} {V own own' : Verdicts} {live live' : Nat → Prop} {c d : Cursor}
  {passed passed' : Passed} {join k n : Nat} {f g next : Next} {F G : Ways} {K : Cursor → Prop}

/-- A join that has been passed leads nowhere, or it has been passed at an earlier place, or it is
one of those that the search still tries to go on from here. -/
def Fits (t : Text) (V : Verdicts) (live : Nat → Prop) (c : Cursor) (passed : Passed) : Prop :=
  ∀ join b, b.IsPlace t → Tried passed join b →
    V join b ∨ b.offset < c.offset ∨ b = c ∧ live join

theorem Fits.mono (h : Fits t V live c passed) (sub : ∀ j, live j → live' j) :
    Fits t V live' c passed :=
  fun join b place tried =>
    (h join b place tried).imp_right (Or.imp_right (And.imp_right (sub join)))

/-- What has been passed before lies behind every later place. -/
theorem Fits.ahead (h : Fits t V live c passed) (lt : c.offset < d.offset) :
    Fits t V live' d passed := by
  intro join b place tried
  rcases h join b place tried with nowhere | before | ⟨rfl, -⟩
  · exact .inl nowhere
  · exact .inr (.inl (Nat.lt_trans before lt))
  · exact .inr (.inl lt)

/-- From the place on, none of the matches is left, however the place has been reached. -/
def Decides (K : Cursor → Prop) (F : Ways) (c : Cursor) : Prop :=
  ∀ m, m.stop = c → m.looked = false → (F m = [] ↔ K c)

/-- None of the matches is left before the ways if none is left behind any of their ends. -/
theorem Decides.andThen {W : Ways} {M : Ends Cursor} (follows : W.Follows M)
    (ends : ∀ d, M c d → Decides K F d) :
    Decides (fun c => ∀ d, M c d → K d) (W.andThen F) c := by
  rintro m rfl looked
  simp only [Ways.andThen, List.flatMap_eq_nil_iff]
  constructor
  · intro none d step
    obtain ⟨n, mem, rfl⟩ := (follows.ends m d).2 step
    exact (ends n.stop step n rfl ((follows.looked m n mem).trans looked)).1 (none n mem)
  · intro all n mem
    have step := follows.stop_of_mem mem
    exact (ends n.stop step n rfl ((follows.looked m n mem).trans looked)).2 (all n.stop step)

namespace Next

/-- The outcome of a search is the first of the given matches; if there are none, the search has
only passed joins that lead nowhere. -/
structure Answers (t : Text) (V : Verdicts) (passed : Passed) (outcome : Except Passed Match)
    (found : List Match) : Prop where
  ok : ∀ r, outcome = .ok r → found.head? = some r
  error : ∀ passed', outcome = .error passed' →
    found = [] ∧ ∀ join b, b.IsPlace t → Tried passed' join b → Tried passed join b ∨ V join b

theorem Answers.stuck (t : Text) (V : Verdicts) (passed : Passed) :
    Answers t V passed (.error passed) [] :=
  ⟨nofun, fun _ eq => ⟨rfl, fun _ _ _ tried => .inl (Except.error.inj eq ▸ tried)⟩⟩

/-- From `c` on, the search finds the first of the matches `F`. -/
def Prefers (t : Text) (V : Verdicts) (live : Nat → Prop) (next : Next) (F : Ways) (c : Cursor) :
    Prop :=
  ∀ m passed, m.stop = c → m.looked = false → Fits t V live c passed →
    Answers t V passed (next m passed) (F m)

theorem Prefers.mono (h : Prefers t V live' next F c) (sub : ∀ j, live j → live' j) :
    Prefers t V live next F c :=
  fun m passed stop looked fits => h m passed stop looked (fits.mono sub)

theorem Prefers.congr (h : Prefers t V live next F c) (eq : ∀ m, m.stop = c → F m = G m) :
    Prefers t V live next G c :=
  fun m passed stop looked fits => eq m stop ▸ h m passed stop looked fits

theorem Prefers.orElse (hf : Prefers t V live f F c) (hg : Prefers t V live g G c) :
    Prefers t V live (orElse f g) (fun m => F m ++ G m) c := by
  intro m passed stop looked fits
  obtain ⟨ok, error⟩ := hf m passed stop looked fits
  cases first : f m passed with
  | ok r =>
    have run : Next.orElse f g m passed = .ok r := by rw [Next.orElse, first]; rfl
    rw [run]
    refine ⟨fun r' eq => ?_, fun _ eq => by cases eq⟩
    obtain rfl := Except.ok.inj eq
    rw [List.head?_append, ok r first]
    rfl
  | error middle =>
    have run : Next.orElse f g m passed = g m middle := by rw [Next.orElse, first]; rfl
    obtain ⟨none, new⟩ := error middle first
    have fits' : Fits t V live c middle := fun join b place tried => by
      rcases new join b place tried with old | nowhere
      · exact fits join b place old
      · exact .inl nowhere
    obtain ⟨ok', error'⟩ := hg m middle stop looked fits'
    rw [run]
    simp only [none, List.nil_append]
    refine ⟨ok', fun passed' eq => ⟨(error' passed' eq).1, fun join b place tried => ?_⟩⟩
    rcases (error' passed' eq).2 join b place tried with old | nowhere
    · exact new join b place old
    · exact .inr nowhere

/-- The ways of a choice between one more round and the end. -/
theorem Prefers.arrange (hf : Prefers t V live f F c) (hg : Prefers t V live g G c)
    (greedy : Bool) : Prefers t V live (if greedy then Next.orElse f g else Next.orElse g f)
      (fun m => Ways.arrange greedy (F m) (G m)) c := by
  cases greedy with
  | true => exact hf.orElse hg
  | false => exact hg.orElse hf

/-- A join that is not one of those the search still tries to go on from. -/
theorem Prefers.once (new : ¬live join) (decides : Decides (V join) F c)
    (h : Prefers t V (fun j => j = join ∨ live j) next F c) (place : c.IsPlace t) :
    Prefers t V live (once join next) F c := by
  intro m passed stop looked fits
  simp only [Next.once, looked, stop]
  split
  · rename_i before
    refine ⟨fun _ eq => (by cases eq), fun passed' eq => ?_⟩
    obtain rfl := Except.error.inj eq
    refine ⟨(decides m stop looked).2 ?_, fun _ _ _ => .inl⟩
    rcases fits join c place before with nowhere | before | ⟨-, old⟩
    · exact nowhere
    · exact absurd before (Nat.lt_irrefl _)
    · exact absurd old new
  · have fits' : Fits t V (fun j => j = join ∨ live j) c
        (passed.insert ⟨join, false, c.offset⟩) := by
      intro join' b place' tried
      rcases mem_insert_iff.1 tried with eq | tried
      · obtain ⟨rfl, -, same⟩ := Passage.mk.inj eq
        exact .inr (.inr ⟨place'.eq_of_offset place same, .inl rfl⟩)
      · exact fits.mono (fun _ => Or.inr) join' b place' tried
    obtain ⟨ok, error⟩ := h m _ stop looked fits'
    refine ⟨ok, fun passed' eq => ?_⟩
    obtain ⟨none, passages⟩ := error passed' eq
    refine ⟨none, fun join' b place' tried => ?_⟩
    rcases passages join' b place' tried with tried | nowhere
    · rcases mem_insert_iff.1 tried with eq | old
      · obtain ⟨rfl, -, same⟩ := Passage.mk.inj eq
        obtain rfl := place'.eq_of_offset place same
        exact .inr ((decides m stop looked).1 none)
      · exact .inl old
    · exact .inr nowhere

end Next

namespace Searcher

open Next (Prefers)

/-- The `n` joins from `join` on. -/
def Own (join n : Nat) : Nat → Prop :=
  fun j => join ≤ j ∧ j < join + n

/-- Whatever the search behind it prefers, the searcher prefers the given ways on to it, if `K` says
where nothing is left behind it. A prompt searcher takes a character first, so that it may be
entered again where the search still tries to go on from its joins. -/
def Orders (t : Text) (prompt : Bool) (s : Searcher) (M : Ends Cursor) (W : Ways) (V : Verdicts)
    (join : Nat) (K : Cursor → Prop) : Prop :=
  ∀ limit next F live c, c.IsPlace t → c.ahead.length ≤ limit.length →
    (prompt = true ∨ ∀ j, Own join s.joins j → ¬live j) →
    (∀ d, M c d → Decides K F d ∧
      Prefers t V (fun j => Own join s.joins j ∨ d = c ∧ live j) next F d) →
    Prefers t V live (s.follow limit join next) (W.andThen F) c

/-- Wherever nothing is left behind the searcher, there are verdicts at its joins with which it
prefers the given ways. -/
def Ordered (t : Text) (prompt : Bool) (s : Searcher) (M : Ends Cursor) (W : Ways) : Prop :=
  ∀ join K, ∃ own : Verdicts, ∀ V, Agrees V own join s.joins → Orders t prompt s M W V join K

/-- A prompt searcher goes ahead. -/
def Advances (prompt : Bool) (M : Ends Cursor) : Prop :=
  prompt = true → ∀ c d, M c d → d.ahead.length < c.ahead.length

variable {prompt prompt₁ prompt₂ : Bool} {M N : Ends Cursor} {W W₁ W₂ : Ways}
  {s body first second : Searcher} {m : Nat}

theorem Advances.ne (h : Advances prompt M) (p : prompt = true) (step : M c d) : d ≠ c := by
  rintro rfl
  exact Nat.lt_irrefl _ (h p d d step)

theorem Own.front (h : Own join n k) (m : Nat) : Own join (n + m) k :=
  ⟨h.1, by have := h.2; omega⟩

theorem Own.back (h : Own (join + n) m k) : Own join (n + m) k :=
  ⟨by have := h.1; omega, by have := h.2; omega⟩

theorem Ordered.congr (h : Ordered t prompt s M W) (eq : ∀ c d, M c d ↔ N c d) :
    Ordered t prompt s N W := by
  have : M = N := funext fun c => funext fun d => propext (eq c d)
  exact this ▸ h

/-- What is not prompt may be taken so. -/
theorem Ordered.mono (h : Ordered t prompt s M W) : Ordered t false s M W := by
  intro join K
  obtain ⟨own, prefers⟩ := h join K
  refine ⟨own, fun V agree limit next F live c place le new ends => ?_⟩
  exact prefers V agree limit next F live c place le (.inr (by simpa using new)) ends

/-! ## Single steps -/

theorem ordered_empty (t : Text) :
    Ordered t false .empty (fun c d => d = c) fun m => [m] := by
  intro join K
  refine ⟨fun _ => K, fun V _ limit next F live c _ _ _ ends => ?_⟩
  rw [Ways.nothing_andThen]
  exact (ends c rfl).2.mono fun j old => .inr ⟨rfl, old⟩

theorem ordered_one (t : Text) (rule : CaseRule) (set : CharSet) :
    Ordered t true (.one rule set .atOnce)
      (fun c d => ∃ x, c.next? = some (x, d) ∧ set.contains rule x = true)
      (Regex.one rule set).ways := by
  intro join K
  refine ⟨fun _ => K, fun V _ limit next F live c _ _ _ ends => ?_⟩
  rintro m passed rfl looked fits
  simp only [one, take, Ways.andThen, ways]
  cases eq : m.stop.next? with
  | none => exact .stuck t V passed
  | some result =>
    obtain ⟨x, stop⟩ := result
    dsimp only
    split
    · rename_i mem
      rw [List.flatMap_singleton]
      exact (ends stop ⟨x, eq, mem⟩).2 { m with stop } passed rfl looked
        (fits.ahead (Cursor.offset_lt_of_next? eq))
    · exact .stuck t V passed

theorem ordered_look (t : Text) (condition : Look) :
    Ordered t false (.look condition .atOnce) (fun c d => condition.holds c = true ∧ d = c)
      (Regex.look condition).ways := by
  intro join K
  refine ⟨fun _ => K, fun V _ limit next F live c _ _ _ ends => ?_⟩
  rintro m passed rfl looked fits
  simp only [look, Ways.andThen, ways]
  split
  · rename_i holds
    rw [List.flatMap_singleton]
    exact (ends m.stop ⟨holds, rfl⟩).2 m passed rfl looked
      (fits.mono fun j old => .inr ⟨rfl, old⟩)
  · exact .stuck t V passed

theorem Ordered.capture (h : Ordered t prompt body M W) (name : Text) :
    Ordered t prompt (capture name body) M fun m => (W m).map (·.capture name m.stop) := by
  intro join K
  obtain ⟨own, prefers⟩ := h join K
  refine ⟨own, fun V agree limit next F live c place le new ends => ?_⟩
  rintro m passed rfl looked fits
  rw [show Ways.andThen (fun m => (W m).map (·.capture name m.stop)) F m =
    W.andThen (fun n => F (n.capture name m.stop)) m from List.flatMap_map ..]
  refine prefers V agree limit (fun n => next (n.capture name m.stop)) _ live m.stop place le new
    (fun d step => ⟨fun n stop looked => ?_, fun n passed' stop looked fits => ?_⟩)
    m passed rfl looked fits
  · exact (ends d step).1 (n.capture name m.stop) stop looked
  · exact (ends d step).2 (n.capture name m.stop) passed' stop looked fits

/-! ## Combinations -/

theorem Ordered.seq (h₁ : Ordered t prompt first M W₁) (forward : M.Forward)
    (advances : Advances prompt M)
    (h₂ : Ordered t false second N W₂) (follows₂ : W₂.Follows N) :
    Ordered t prompt (seq first second) (fun c d => ∃ e, M c e ∧ N e d) (W₁.andThen W₂) := by
  intro join K
  obtain ⟨own₂, prefers₂⟩ := h₂ (join + first.joins) K
  obtain ⟨own₁, prefers₁⟩ := h₁ join fun e => ∀ d, N e d → K d
  refine ⟨splice (join + first.joins) own₁ own₂,
    fun V agree limit next F live c place le new ends => ?_⟩
  rw [Ways.andThen_assoc]
  refine prefers₁ V agree.front limit _ _ live c place le
    (new.imp_right fun new j mine => new j (mine.front _)) fun e front => ⟨?_, ?_⟩
  · exact Decides.andThen follows₂ fun d back => (ends d ⟨e, front, back⟩).1
  · have reach := forward c e front
    refine prefers₂ V agree.back limit next F _ e (place.reaches reach)
      (Nat.le_trans reach.length_le le) (.inr fun j mine => ?_) fun d back => ⟨?_, ?_⟩
    · rintro (other | ⟨rfl, old⟩)
      · have := mine.1
        have := other.2
        omega
      · rcases new with p | new
        · exact advances.ne p front rfl
        · exact new j mine.back old
    · exact (ends d ⟨e, front, back⟩).1
    · refine (ends d ⟨e, front, back⟩).2.mono ?_
      rintro j (mine | ⟨rfl, other | ⟨rfl, old⟩⟩)
      · exact .inl mine.back
      · exact .inl (other.front _)
      · exact .inr ⟨rfl, old⟩

theorem Ordered.choice (h₁ : Ordered t prompt₁ first M W₁) (h₂ : Ordered t prompt₂ second N W₂) :
    Ordered t (prompt₁ && prompt₂) (choice first second) (fun c d => M c d ∨ N c d)
      fun m => W₁ m ++ W₂ m := by
  intro join K
  obtain ⟨own₁, prefers₁⟩ := h₁ join K
  obtain ⟨own₂, prefers₂⟩ := h₂ (join + first.joins) K
  refine ⟨splice (join + first.joins) own₁ own₂,
    fun V agree limit next F live c place le new ends => ?_⟩
  rw [show Ways.andThen (fun m => W₁ m ++ W₂ m) F = fun m => W₁.andThen F m ++ W₂.andThen F m from
    funext fun m => List.flatMap_append ..]
  rw [Bool.and_eq_true] at new
  refine Prefers.orElse ?_ ?_
  · refine prefers₁ V agree.front limit next F live c place le
      (new.imp And.left fun new j mine => new j (mine.front _)) fun d step => ⟨?_, ?_⟩
    · exact (ends d (.inl step)).1
    · exact (ends d (.inl step)).2.mono fun j => Or.imp_left fun mine => mine.front _
  · refine prefers₂ V agree.back limit next F live c place le
      (new.imp And.right fun new j mine => new j mine.back) fun d step => ⟨?_, ?_⟩
    · exact (ends d (.inr step)).1
    · exact (ends d (.inr step)).2.mono fun j => Or.imp_left Own.back

theorem Ordered.joined (h : Ordered t prompt s M W) (forward : M.Forward)
    (advances : Advances prompt M) : Ordered t prompt (joined s) M W := by
  intro join K
  obtain ⟨own, prefers⟩ := h join K
  refine ⟨splice (join + s.joins) own fun _ => K,
    fun V agree limit next F live c place le new ends => ?_⟩
  have verdict : V (join + s.joins) = K := agree.back.head
  have last : Own join (s.joins + 1) (join + s.joins) := ⟨by omega, by omega⟩
  refine prefers V agree.front limit _ F live c place le
    (new.imp_right fun new j mine => new j (mine.front _)) fun d step => ⟨(ends d step).1, ?_⟩
  refine Prefers.once ?_ (verdict ▸ (ends d step).1) ((ends d step).2.mono ?_)
    (place.reaches (forward c d step))
  · rintro (mine | ⟨rfl, old⟩)
    · exact Nat.lt_irrefl _ mine.2
    · rcases new with p | new
      · exact advances.ne p step rfl
      · exact new _ last old
  · rintro j (rfl | mine | old)
    · exact .inl last
    · exact .inl (mine.front _)
    · exact .inr old

theorem Ordered.alt (h₁ : Ordered t prompt₁ first M W₁) (h₂ : Ordered t prompt₂ second N W₂)
    (forward₁ : M.Forward) (forward₂ : N.Forward) (advances₁ : Advances prompt₁ M)
    (advances₂ : Advances prompt₂ N) :
    Ordered t (prompt₁ && prompt₂) (alt first second) (fun c d => M c d ∨ N c d)
      fun m => W₁ m ++ W₂ m := by
  rw [alt_eq]
  refine (h₁.choice h₂).joined ?_ fun p => ?_
  · rintro c d (step | step)
    · exact forward₁ c d step
    · exact forward₂ c d step
  · rw [Bool.and_eq_true] at p
    rintro c d (step | step)
    · exact advances₁ p.1 c d step
    · exact advances₂ p.2 c d step

/-! ## Bounded repetitions -/

theorem Ordered.times (h : Ordered t prompt body M W) (forward : M.Forward)
    (advances : Advances prompt M) (follows : W.Follows M) (n : Nat) :
    Ordered t (n != 0 && prompt) (times n body) (Rounds M n) (W.times n) := by
  induction n with
  | zero =>
    rw [times_zero]
    exact ordered_empty t
  | succ n ih =>
    rw [times_succ]
    exact h.seq forward advances ih.mono (follows.times n)

theorem Ordered.rounds (h : Ordered t prompt body M W) (forward : M.Forward)
    (advances : Advances prompt M) (follows : W.Follows M) (greedy : Bool) (n : Nat) :
    Ordered t false (rounds greedy n body) (fun c d => ∃ k ≤ n, Rounds M k c d)
      (W.upTo greedy n) := by
  induction n with
  | zero =>
    rw [rounds_zero]
    refine (ordered_empty t).congr fun c d => ?_
    simp [Rounds]
  | succ n ih =>
    have again := (h.seq forward advances ih (follows.upTo greedy n)).mono
    rw [rounds_succ]
    cases greedy with
    | true =>
      exact (again.choice (ordered_empty t)).congr fun _ _ =>
        Or.comm.trans Ends.rounds_succ_iff.symm
    | false =>
      exact ((ordered_empty t).choice again).congr fun _ _ => Ends.rounds_succ_iff.symm

theorem Ordered.upTo (h : Ordered t prompt body M W) (forward : M.Forward)
    (advances : Advances prompt M) (follows : W.Follows M) (greedy : Bool) (n : Nat) :
    Ordered t false (upTo greedy n body) (fun c d => ∃ k ≤ n, Rounds M k c d)
      (W.upTo greedy n) := by
  rw [upTo_eq]
  refine (h.rounds forward advances follows greedy n).joined ?_ nofun
  rintro c d ⟨k, -, rounds⟩
  exact forward.rounds c d rounds

/-! ## Unbounded repetitions -/

section

variable {start bound : Nat} {mine : Nat → Prop} {limit : Text} {round : Next → Next}

/-- What is known about a round that takes something: behind it, the search is only trying to go
on from the joins of the round. -/
def Rounded (t : Text) (V : Verdicts) (mine : Nat → Prop) (bound : Nat) (round : Next → Next)
    (M : Ends Cursor) (W : Ways) (K : Cursor → Prop) : Prop :=
  ∀ next F live c, c.IsPlace t → c.ahead.length ≤ bound →
    (∀ d, M c d → Decides K F d ∧ Prefers t V mine next F d) →
    Prefers t V live (round next) (W.andThen F) c

theorem prefers_followRounds (greedy : Bool)
    (verdict : V start = fun c => ∀ d, (∃ k, Rounds M k c d) → K d) (new : ¬mine start)
    (forward : M.Forward) (progress : ∀ c d, M c d → d.ahead.length < c.ahead.length)
    (follows : W.Follows M) (rounded : Rounded t V mine bound round M W (V start))
    (place : c.IsPlace t) (le : c.ahead.length ≤ bound) (enough : c.ahead.length ≤ limit.length)
    (fresh : ¬live start)
    (ends : ∀ d, (∃ k, Rounds M k c d) → Decides K F d ∧
      Prefers t V (fun j => j = start ∨ mine j ∨ d = c ∧ live j) next F d) :
    Prefers t V live (followRounds greedy round start next limit)
      ((W.many greedy).andThen F) c := by
  have decides : ∀ c, (∀ d, (∃ k, Rounds M k c d) → Decides K F d) →
      Decides (V start) ((W.many greedy).andThen F) c :=
    fun c ends => verdict ▸ Decides.andThen (follows.many greedy progress) ends
  induction limit generalizing c live with
  | nil =>
    have stop : Prefers t V (fun j => j = start ∨ live j) next F c :=
      (ends c ⟨0, rfl⟩).2.mono fun j => Or.imp_right fun old => .inr ⟨rfl, old⟩
    refine Prefers.once fresh (decides c fun d step => (ends d step).1) (stop.congr ?_) place
    rintro m rfl
    have nothing : m.stop.ahead.length = 0 := Nat.le_zero.1 enough
    rw [Ways.andThen, Ways.many, nothing]
    exact (List.flatMap_singleton ..).symm
  | cons x limit ih =>
    refine Prefers.once fresh (decides c fun d step => (ends d step).1) ?_ place
    have stop : Prefers t V (fun j => j = start ∨ live j) next F c :=
      (ends c ⟨0, rfl⟩).2.mono fun j => Or.imp_right fun old => .inr ⟨rfl, old⟩
    have again : Prefers t V (fun j => j = start ∨ live j)
        (round (followRounds greedy round start next limit))
        (W.andThen ((W.many greedy).andThen F)) c := by
      refine rounded _ _ _ c place le fun d first => ?_
      have onward : ∀ e, (∃ k, Rounds M k d e) → ∃ k, Rounds M k c e := by
        rintro e ⟨k, rest⟩
        exact ⟨k + 1, d, first, rest⟩
      refine ⟨decides d fun e rest => (ends e (onward e rest)).1, ?_⟩
      have lt := progress c d first
      rw [List.length_cons] at enough
      refine ih (place.reaches (forward c d first)) (by omega) (by omega) new
        fun e rest => ⟨(ends e (onward e rest)).1, (ends e (onward e rest)).2.mono ?_⟩
      rintro j (eq | here | ⟨-, here⟩)
      · exact .inl eq
      · exact .inr (.inl here)
      · exact .inr (.inl here)
    rw [← Ways.andThen_assoc] at again
    exact (again.arrange stop greedy).congr fun m _ =>
      (follows.many_andThen greedy progress F m).symm

theorem prefers_followLoop (greedy : Bool)
    (verdict : V start = fun c => ∀ d, (∃ k, Rounds M (k + 1) c d) → K d)
    (verdict' : V (start + 1) = fun c => ∀ d, (∃ k, Rounds M k c d) → K d)
    (new : ¬mine start) (new' : ¬mine (start + 1))
    (forward : M.Forward) (progress : ∀ c d, M c d → d.ahead.length < c.ahead.length)
    (follows : W.Follows M) (rounded : Rounded t V mine bound round M W (V (start + 1)))
    (place : c.IsPlace t) (le : c.ahead.length ≤ bound) (enough : c.ahead.length ≤ limit.length)
    (fresh : ¬live start)
    (ends : ∀ d, (∃ k, Rounds M (k + 1) c d) → Decides K F d ∧
      Prefers t V (fun j => j = start + 1 ∨ mine j) next F d) :
    Prefers t V live (followLoop greedy round start next limit)
      ((W.andThen (W.many greedy)).andThen F) c := by
  have decides : ∀ c, (∀ d, (∃ k, Rounds M (k + 1) c d) → Decides K F d) →
      Decides (V start) ((W.andThen (W.many greedy)).andThen F) c := by
    intro c ends
    rw [verdict]
    exact Decides.andThen ((follows.andThen (follows.many greedy progress)).congr
      fun _ _ => Ends.exists_rounds_succ_iff.symm) ends
  induction limit generalizing c live with
  | nil =>
    refine Prefers.once fresh (decides c fun d step => (ends d step).1) ?_ place
    rw [Ways.andThen_assoc]
    refine rounded _ _ _ c place le fun d first => ?_
    have := progress c d first
    rw [List.length_nil] at enough
    omega
  | cons x limit ih =>
    refine Prefers.once fresh (decides c fun d step => (ends d step).1) ?_ place
    rw [Ways.andThen_assoc]
    refine rounded _ _ _ c place le fun d first => ?_
    have lt := progress c d first
    have place' := place.reaches (forward c d first)
    rw [List.length_cons] at enough
    have decides' : Decides (V (start + 1)) ((W.many greedy).andThen F) d :=
      verdict' ▸ Decides.andThen (follows.many greedy progress)
        fun e ⟨k, rest⟩ => (ends e ⟨k, d, first, rest⟩).1
    have stop : Prefers t V (fun j => j = start + 1 ∨ mine j) next F d :=
      (ends d ⟨0, .one first⟩).2
    have again : Prefers t V (fun j => j = start + 1 ∨ mine j)
        (followLoop greedy round start next limit)
        ((W.andThen (W.many greedy)).andThen F) d := by
      refine ih place' (by omega) (by omega) ?_ fun e ⟨k, rest⟩ => ends e ⟨k + 1, d, first, rest⟩
      rintro (eq | here)
      · omega
      · exact new here
    refine ⟨decides', Prefers.once new' decides' ?_ place'⟩
    exact (again.arrange stop greedy).congr fun m _ =>
      (follows.many_andThen greedy progress F m).symm

end

theorem Orders.rounded (h : Orders t true s M W V join K) (advances : Advances true M)
    (limit : Text) :
    Rounded t V (Own join s.joins) limit.length (s.follow limit join) M W K := by
  intro next F live c place le ends
  refine h limit next F live c place le (.inl rfl) fun d step => ⟨(ends d step).1, ?_⟩
  refine (ends d step).2.mono ?_
  rintro j (mine | ⟨rfl, -⟩)
  · exact mine
  · exact absurd rfl (advances.ne rfl step)

theorem Ordered.progressive (h : Ordered t true body M W) (forward : M.Forward)
    (advances : Advances true M) (follows : W.Follows M) (greedy : Bool) :
    Ordered t false (progressive greedy body) (fun c d => ∃ k, Rounds M k c d)
      (W.many greedy) := by
  intro join K
  obtain ⟨own, orders⟩ := h join fun c => ∀ d, (∃ k, Rounds M k c d) → K d
  refine ⟨splice (join + body.joins) own fun _ c => ∀ d, (∃ k, Rounds M k c d) → K d,
    fun V agree limit next F live c place le new ends => ?_⟩
  have verdict : V (join + body.joins) = fun c => ∀ d, (∃ k, Rounds M k c d) → K d :=
    agree.back.head
  have last : Own join (body.joins + 1) (join + body.joins) :=
    ⟨Nat.le_add_right .., Nat.lt_succ_self _⟩
  have new := new.resolve_left Bool.false_ne_true
  have notOwn : ¬Own join body.joins (join + body.joins) := fun own => Nat.lt_irrefl _ own.2
  refine prefers_followRounds greedy verdict notOwn forward (advances rfl) follows
    (verdict ▸ (orders V agree.front).rounded advances limit) place le le
    (new _ last) fun d step => ⟨(ends d step).1, (ends d step).2.mono ?_⟩
  rintro j (rfl | mine | old)
  · exact .inl last
  · exact .inl (mine.front 1)
  · exact .inr old

theorem Ordered.oneOrMore (h : Ordered t true body M W) (forward : M.Forward)
    (advances : Advances true M) (follows : W.Follows M) (greedy : Bool) :
    Ordered t false (oneOrMore greedy body) (fun c d => ∃ k, Rounds M (k + 1) c d)
      (W.andThen (W.many greedy)) := by
  intro join K
  obtain ⟨own, orders⟩ := h join fun c => ∀ d, (∃ k, Rounds M k c d) → K d
  refine ⟨splice (join + body.joins) own (splice (join + body.joins + 1)
    (fun _ c => ∀ d, (∃ k, Rounds M (k + 1) c d) → K d)
    fun _ c => ∀ d, (∃ k, Rounds M k c d) → K d),
    fun V agree limit next F live c place le new ends => ?_⟩
  have behind := agree.back (n := 2)
  have first : Own join (body.joins + 2) (join + body.joins) := ⟨by omega, by omega⟩
  have second : Own join (body.joins + 2) (join + body.joins + 1) := ⟨by omega, by omega⟩
  have verdict : V (join + body.joins) = fun c => ∀ d, (∃ k, Rounds M (k + 1) c d) → K d :=
    (behind.front (m := 1) (n := 1)).head
  have verdict' : V (join + body.joins + 1) = fun c => ∀ d, (∃ k, Rounds M k c d) → K d :=
    (behind.back (m := 1) (n := 1)).head
  have new := new.resolve_left Bool.false_ne_true
  have notOwn : ¬Own join body.joins (join + body.joins) := fun own => Nat.lt_irrefl _ own.2
  have notOwn' : ¬Own join body.joins (join + body.joins + 1) := fun own => by
    have := own.2
    omega
  refine prefers_followLoop greedy verdict verdict' notOwn notOwn' forward
    (advances rfl) follows (verdict' ▸ (orders V agree.front).rounded advances limit) place le
    le (new _ first) fun d step => ⟨(ends d step).1, (ends d step).2.mono ?_⟩
  rintro j (rfl | mine)
  · exact .inl second
  · exact .inl (mine.front 2)

theorem Advances.times (h : Advances prompt M) (forward : M.Forward) (n : Nat) :
    Advances (n != 0 && prompt) (Rounds M n) := by
  cases n with
  | zero => exact nofun
  | succ n =>
    rintro p c d ⟨e, first, rest⟩
    have lt := h (by simpa using p) c e first
    exact Nat.lt_of_le_of_lt (forward.rounds e d rest).length_le lt

theorem Ordered.repetition (h : Ordered t prompt body M W) (forward : M.Forward)
    (advances : Advances prompt M) (follows : W.Follows M) (greedy : Bool)
    {takesSomething : Bool} (takes : prompt = true → takesSomething = true) (least : Nat)
    (most : Option Nat) (steady : most.isSome ∨ prompt = true) :
    Ordered t (least != 0 && most.isSome && prompt)
      (repetition greedy takesSomething body least most) (M.Between least most)
      (W.between greedy least most) := by
  match least, most with
  | least, some most =>
    rw [Option.isSome_some, Bool.and_true]
    exact ((h.times forward advances follows least).seq forward.rounds
      (advances.times forward least) (h.upTo forward advances follows greedy (most - least))
      (follows.upTo greedy _)).congr fun _ _ => Ends.between_some_iff.symm
  | 0, none =>
    obtain rfl : prompt = true := steady.resolve_left Bool.false_ne_true
    obtain rfl := takes rfl
    have all := (h.progressive forward advances follows greedy).congr
      (N := M.Between 0 none) fun c d => by simp [Ends.between_none_iff, Rounds]
    rwa [← Ways.nothing_andThen (W.many greedy)] at all
  | least + 1, none =>
    obtain rfl : prompt = true := steady.resolve_left Bool.false_ne_true
    have more := follows.andThen (follows.many greedy (advances rfl))
    have all := ((h.times forward advances follows least).seq forward.rounds
      (advances.times forward least) (h.oneOrMore forward advances follows greedy)
      (more.congr fun _ _ => Ends.exists_rounds_succ_iff.symm)).mono.congr fun _ _ =>
        Ends.between_succ_none_iff.symm
    rwa [← Ways.andThen_assoc, Ways.times_andThen] at all

/-- A steady expression prefers its ways in their order. -/
theorem ordered_searcher (t : Text) {r : Regex} (steady : r.isSteady) :
    (r.searcher .atOnce).Ordered t r.startsByTaking r.Matches r.ways := by
  have advances : ∀ r : Regex, Advances r.startsByTaking r.Matches := fun r prompt _ _ =>
    length_lt_of_takesSomething (takesSomething_of_startsByTaking prompt)
  induction r with
  | empty => exact ordered_empty t
  | one rule set => exact ordered_one t rule set
  | look condition => exact ordered_look t condition
  | group name? body ih =>
    cases name? with
    | none => exact ih steady
    | some name => exact (ih steady).capture name
  | seq first second ih₁ ih₂ =>
    simp only [isSteady, Bool.and_eq_true] at steady
    exact (ih₁ steady.1).seq (matches_forward first) (advances first) (ih₂ steady.2).mono
      (follows_ways steady.2)
  | alt preferred other ih₁ ih₂ =>
    simp only [isSteady, Bool.and_eq_true] at steady
    exact (ih₁ steady.1).alt (ih₂ steady.2) (matches_forward preferred) (matches_forward other)
      (advances preferred) (advances other)
  | repetition body least most greedy ih =>
    simp only [isSteady, Bool.and_eq_true, Bool.or_eq_true] at steady
    exact (ih steady.1).repetition (matches_forward body) (advances body) (follows_ways steady.1)
      greedy takesSomething_of_startsByTaking least most steady.2

/-- The outcome of a search at a place is the first of all ways. -/
theorem toOption_attempt {r : Regex} (steady : r.isSteady) {t : Text} {c : Cursor}
    (place : c.IsPlace t) :
    (r.searcher.attempt c.ahead c ∅).toOption = (r.ways { stop := c }).head? := by
  obtain ⟨own, orders⟩ := ordered_searcher t steady 0 fun _ => False
  have stop : ∀ d, Decides (fun _ => False) (fun m => [m]) d ∧
      Prefers t own (fun j => Own 0 r.searcher.joins j ∨ d = c ∧ False)
        (fun m _ => .ok m) (fun m => [m]) d :=
    fun d => ⟨fun m _ _ => by simp, fun m _ _ _ _ =>
      ⟨fun _ eq => congrArg some (Except.ok.inj eq), nofun⟩⟩
  have answers := orders own (fun _ _ _ => rfl) c.ahead _ _ (fun _ => False) c place
    (Nat.le_refl _) (.inr fun _ _ => id) (fun d _ => stop d) { stop := c } ∅ rfl rfl
    fun _ _ _ tried => absurd tried Std.TreeSet.not_mem_emptyc
  rw [Ways.andThen_nothing] at answers
  rw [attempt]
  cases outcome : r.searcher.follow c.ahead 0 (fun m _ => .ok m) { stop := c } ∅ with
  | ok m => exact (answers.ok m outcome).symm
  | error passed => rw [(answers.error passed outcome).1]; rfl

end Searcher

variable {r : Regex}

/-- The match that is found at a place is the first of all ways. -/
theorem matchAt?_eq_head? (steady : r.isSteady) (place : c.IsPlace t) :
    r.searcher.matchAt? c = (r.ways { stop := c }).head? :=
  Searcher.toOption_attempt steady place

/-- A match at the start of a text is found first. -/
theorem find?_eq_some_of_head? (steady : r.isSteady) {m : Match}
    (head : (r.ways { stop := .start t }).head? = some m) : r.searcher.find? t = some m := by
  have found := Searcher.toOption_attempt steady (Cursor.isPlace_start t)
  rw [head, Searcher.toOption_eq_some_iff] at found
  obtain ⟨later, places⟩ := Cursor.exists_places_eq (Cursor.start t)
  rw [Searcher.find?, Searcher.findFrom?, places, Searcher.firstMatch?, found]
  rfl

end RulesText.Regex
