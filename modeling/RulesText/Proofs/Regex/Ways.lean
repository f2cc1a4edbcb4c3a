import Mathlib.Data.List.Basic
import RulesText.Proofs.Regex.GroupSpans

/-!
# Ways in the order of preference

The ways through an expression from a match on, in the order in which they are preferred: the
left branch before the right one, and one more round before the end of a greedy repetition or
after the end of a lazy one. Where every unbounded repetition takes something in each round, the
ends of the ways are the ends of the matches. Which groups there are, and what has been captured
before, makes no difference.

## Main definitions

* `Ways`: the matches that come after a match, preferred ones first.
* `Regex.ways`: the ways through an expression.
* `Regex.isSteady`: a round of an unbounded repetition begins by taking a character.
* `Regex.rename`: an expression with other names for its groups.
-/

namespace RulesText

/-- The matches that come after a match, preferred ones first. -/
abbrev Ways := Match → List Match

namespace Ways

/-- What comes after one more round, and what comes after the last one. -/
def arrange {α : Type} (greedy : Bool) (again stop : List α) : List α :=
  if greedy then again ++ stop else stop ++ again

/-- One after the other. -/
def andThen (W V : Ways) : Ways :=
  fun m => (W m).flatMap V

/-- So many rounds. -/
def times (W : Ways) : Nat → Ways
  | 0, m => [m]
  | n + 1, m => W.andThen (times W n) m

/-- At most so many rounds. -/
def upTo (greedy : Bool) (W : Ways) : Nat → Ways
  | 0, m => [m]
  | n + 1, m => arrange greedy (W.andThen (upTo greedy W n) m) [m]

/-- Any number of rounds that take a character each. -/
def many (greedy : Bool) (W : Ways) : Ways :=
  fun m => upTo greedy W m.stop.ahead.length m

/-- A number of rounds within the given bounds. -/
def between (greedy : Bool) (W : Ways) (least : Nat) : (most : Option Nat) → Ways
  | some most => (W.times least).andThen (W.upTo greedy (most - least))
  | none => (W.times least).andThen (W.many greedy)

@[simp] theorem mem_arrange {α : Type} {greedy : Bool} {again stop : List α} {a : α} :
    a ∈ arrange greedy again stop ↔ a ∈ again ∨ a ∈ stop := by
  cases greedy <;> simp [arrange, or_comm]

theorem map_arrange {α β : Type} (f : α → β) (greedy : Bool) (again stop : List α) :
    (arrange greedy again stop).map f = arrange greedy (again.map f) (stop.map f) := by
  cases greedy <;> simp [arrange]

theorem flatMap_arrange {α β : Type} (f : α → List β) (greedy : Bool) (again stop : List α) :
    (arrange greedy again stop).flatMap f = arrange greedy (again.flatMap f) (stop.flatMap f) := by
  cases greedy <;> simp [arrange]

theorem filter_arrange {α : Type} (p : α → Bool) (greedy : Bool) (again stop : List α) :
    (arrange greedy again stop).filter p = arrange greedy (again.filter p) (stop.filter p) := by
  cases greedy <;> simp [arrange]

theorem andThen_assoc (W V U : Ways) : (W.andThen V).andThen U = W.andThen (V.andThen U) :=
  funext fun _ => List.flatMap_assoc ..

theorem nothing_andThen (W : Ways) : Ways.andThen (fun m => [m]) W = W :=
  funext fun _ => List.flatMap_singleton ..

theorem andThen_nothing (W : Ways) : W.andThen (fun m => [m]) = W :=
  funext fun _ => List.flatMap_singleton' ..

/-- One more round can come before the others or after them. -/
theorem times_andThen (W : Ways) (n : Nat) : (W.times n).andThen W = W.andThen (W.times n) := by
  induction n with
  | zero => exact (nothing_andThen W).trans (andThen_nothing W).symm
  | succ n ih =>
    calc (W.times (n + 1)).andThen W = W.andThen ((W.times n).andThen W) := andThen_assoc ..
      _ = W.andThen (W.andThen (W.times n)) := by rw [ih]

end Ways

namespace Regex

/-- The ways through the expression from a match on. -/
def ways : Regex → Ways
  | empty, m => [m]
  | one rule set, m =>
    match m.stop.next? with
    | some (c, stop) => if set.contains rule c then [{ m with stop }] else []
    | none => []
  | look condition, m => if condition.holds m.stop then [m] else []
  | group none body, m => ways body m
  | group (some name) body, m => (ways body m).map (·.capture name m.stop)
  | seq first second, m => (ways first).andThen (ways second) m
  | alt preferred other, m => ways preferred m ++ ways other m
  | repetition body least most greedy, m => (ways body).between greedy least most m

/-- Whether a match takes a character before anything else. -/
def startsByTaking : Regex → Bool
  | empty | look _ => false
  | one _ _ => true
  | group _ body => startsByTaking body
  | seq first _ => startsByTaking first
  | alt preferred other => startsByTaking preferred && startsByTaking other
  | repetition body least most _ => least != 0 && most.isSome && startsByTaking body

/-- Whether every round of an unbounded repetition begins by taking a character. -/
def isSteady : Regex → Bool
  | empty | one _ _ | look _ => true
  | group _ body => isSteady body
  | seq a b | alt a b => isSteady a && isSteady b
  | repetition body _ most _ => isSteady body && (most.isSome || startsByTaking body)

theorem takesSomething_of_startsByTaking {r : Regex} (h : r.startsByTaking) :
    r.takesSomething := by
  induction r with
  | empty | look => cases h
  | one => rfl
  | group name? body ih => exact ih h
  | seq first second ih₁ ih₂ => simp [takesSomething, ih₁ h]
  | alt preferred other ih₁ ih₂ =>
    simp only [startsByTaking, Bool.and_eq_true] at h
    simp [takesSomething, ih₁ h.1, ih₂ h.2]
  | repetition body least most greedy ih =>
    simp only [startsByTaking, Bool.and_eq_true] at h
    simp only [takesSomething, Bool.and_eq_true]
    exact ⟨h.1.1, ih h.2⟩

end Regex

/-! ## Ends of ways -/

namespace Ways

open Ends (Rounds)

/-- The ways lead to the ends of the matches of a relation. -/
structure Follows (W : Ways) (M : Ends Cursor) : Prop where
  ends : ∀ m d, (∃ n ∈ W m, n.stop = d) ↔ M m.stop d
  looked : ∀ m, ∀ n ∈ W m, n.looked = m.looked

variable {W V : Ways} {M N : Ends Cursor}

theorem Follows.congr (h : W.Follows M) (eq : ∀ c d, M c d ↔ N c d) : W.Follows N :=
  ⟨fun m d => (h.ends m d).trans (eq m.stop d), h.looked⟩

theorem Follows.stop_of_mem (h : W.Follows M) {m n : Match} (mem : n ∈ W m) :
    M m.stop n.stop :=
  (h.ends m n.stop).1 ⟨n, mem, rfl⟩

theorem follows_empty : Follows (fun m => [m]) fun c d => d = c := by
  refine ⟨fun m d => ?_, fun m n mem => ?_⟩
  · simp [eq_comm]
  · rw [List.mem_singleton.1 mem]

theorem Follows.andThen (h : W.Follows M) (g : V.Follows N) :
    (W.andThen V).Follows fun c d => ∃ e, M c e ∧ N e d := by
  refine ⟨fun m d => ⟨?_, ?_⟩, fun m n mem => ?_⟩
  · rintro ⟨n, mem, rfl⟩
    obtain ⟨e, first, second⟩ := List.mem_flatMap.1 mem
    exact ⟨e.stop, h.stop_of_mem first, g.stop_of_mem second⟩
  · rintro ⟨e, first, second⟩
    obtain ⟨e, mem, rfl⟩ := (h.ends m _).2 first
    obtain ⟨n, mem', eq⟩ := (g.ends e d).2 second
    exact ⟨n, List.mem_flatMap.2 ⟨e, mem, mem'⟩, eq⟩
  · obtain ⟨e, first, second⟩ := List.mem_flatMap.1 mem
    exact (g.looked e n second).trans (h.looked m e first)

theorem Follows.either (h : W.Follows M) (g : V.Follows N) {U : Ways}
    (mem_iff : ∀ m n, n ∈ U m ↔ n ∈ W m ∨ n ∈ V m) : U.Follows fun c d => M c d ∨ N c d := by
  refine ⟨fun m d => ?_, fun m n mem => ?_⟩
  · rw [← h.ends m d, ← g.ends m d]
    simp only [mem_iff, or_and_right, exists_or]
  · exact ((mem_iff m n).1 mem).elim (h.looked m n) (g.looked m n)

theorem Follows.times (h : W.Follows M) (n : Nat) : (W.times n).Follows (Rounds M n) := by
  induction n with
  | zero => exact follows_empty
  | succ n ih => exact h.andThen ih

theorem Follows.upTo (h : W.Follows M) (greedy : Bool) (n : Nat) :
    (W.upTo greedy n).Follows fun c d => ∃ k ≤ n, Rounds M k c d := by
  induction n with
  | zero => exact follows_empty.congr fun c d => by simp [Rounds]
  | succ n ih =>
    refine ((h.andThen ih).either follows_empty fun m n => mem_arrange).congr fun c d => ?_
    rw [Ends.rounds_succ_iff, or_comm]

/-- Each of the rounds takes a character. -/
theorem rounds_le (progress : ∀ c d, M c d → d.ahead.length < c.ahead.length) {k : Nat}
    {c d : Cursor} (h : Rounds M k c d) : k ≤ c.ahead.length := by
  induction k generalizing c with
  | zero => exact Nat.zero_le _
  | succ k ih =>
    obtain ⟨e, first, rest⟩ := h
    have := progress c e first
    have := ih rest
    omega

theorem Follows.many (h : W.Follows M) (greedy : Bool)
    (progress : ∀ c d, M c d → d.ahead.length < c.ahead.length) :
    (W.many greedy).Follows fun c d => ∃ k, Rounds M k c d := by
  refine ⟨fun m d => ?_, fun m n mem => (h.upTo greedy _).looked m n mem⟩
  rw [Ways.many, (h.upTo greedy _).ends m d]
  exact ⟨fun ⟨k, _, rounds⟩ => ⟨k, rounds⟩,
    fun ⟨k, rounds⟩ => ⟨k, rounds_le progress rounds, rounds⟩⟩

theorem Follows.between (h : W.Follows M) (greedy : Bool) (least : Nat) (most : Option Nat)
    (progress : most = none → ∀ c d, M c d → d.ahead.length < c.ahead.length) :
    (W.between greedy least most).Follows (M.Between least most) := by
  cases most with
  | some most =>
    exact ((h.times least).andThen (h.upTo greedy _)).congr fun _ _ =>
      Ends.between_some_iff.symm
  | none =>
    exact ((h.times least).andThen (h.many greedy (progress rfl))).congr fun _ _ =>
      Ends.between_none_iff.symm

/-- Where no character is left, there is no further round. -/
theorem Follows.upTo_congr (h : W.Follows M) (greedy : Bool)
    (progress : ∀ c d, M c d → d.ahead.length < c.ahead.length) {n k : Nat} {m : Match}
    (le : m.stop.ahead.length ≤ n) (le' : m.stop.ahead.length ≤ k) :
    W.upTo greedy n m = W.upTo greedy k m := by
  have done : ∀ (m : Match) k, m.stop.ahead.length ≤ 0 → W.upTo greedy k m = [m] := by
    rintro m (_ | k) nothing
    · rfl
    · have none : W m = [] := List.eq_nil_iff_forall_not_mem.2 fun e mem => by
        have := progress _ _ (h.stop_of_mem mem)
        omega
      cases greedy <;> simp [Ways.upTo, arrange, Ways.andThen, none]
  induction n generalizing m k with
  | zero => rw [done m 0 le, done m k le]
  | succ n ih =>
    cases k with
    | zero => rw [done m _ le', done m 0 le']
    | succ k =>
      rw [Ways.upTo, Ways.upTo, Ways.andThen, Ways.andThen, List.flatMap_congr fun e mem => ?_]
      have := progress _ _ (h.stop_of_mem mem)
      exact ih (by omega) (by omega)

/-- Any number of rounds is one more of them or the end. -/
theorem Follows.many_eq (h : W.Follows M) (greedy : Bool)
    (progress : ∀ c d, M c d → d.ahead.length < c.ahead.length) (m : Match) :
    W.many greedy m = arrange greedy (W.andThen (W.many greedy) m) [m] := by
  rw [Ways.many, h.upTo_congr greedy progress (Nat.le_refl _) (Nat.le_succ _), Ways.upTo,
    Ways.andThen, Ways.andThen, List.flatMap_congr fun e mem => ?_]
  exact h.upTo_congr greedy progress (Nat.le_of_lt (progress _ _ (h.stop_of_mem mem)))
    (Nat.le_refl _)

theorem Follows.many_andThen (h : W.Follows M) (greedy : Bool)
    (progress : ∀ c d, M c d → d.ahead.length < c.ahead.length) (F : Ways) (m : Match) :
    (W.many greedy).andThen F m =
      arrange greedy ((W.andThen (W.many greedy)).andThen F m) (F m) := by
  rw [Ways.andThen, h.many_eq greedy progress, flatMap_arrange, List.flatMap_singleton]
  rfl

end Ways

namespace Regex

open Ways (Follows)

theorem mem_ways_one {rule : CaseRule} {set : CharSet} {m n : Match} :
    n ∈ (one rule set).ways m ↔
      ∃ x stop, m.stop.next? = some (x, stop) ∧ set.contains rule x ∧ n = { m with stop } := by
  rw [ways]
  split
  · rename_i x stop next
    simp only [next, Option.some.injEq, Prod.mk.injEq]
    split
    · rename_i mem
      simp only [List.mem_singleton]
      refine ⟨fun eq => ⟨x, stop, ⟨rfl, rfl⟩, mem, eq⟩, ?_⟩
      rintro ⟨_, _, ⟨rfl, rfl⟩, -, eq⟩
      exact eq
    · rename_i not
      simp only [List.not_mem_nil, false_iff]
      rintro ⟨_, _, ⟨rfl, rfl⟩, mem, -⟩
      exact not mem
  · rename_i none
    simp [none]

theorem mem_ways_look {condition : Look} {m n : Match} :
    n ∈ (look condition).ways m ↔ condition.holds m.stop ∧ n = m := by
  rw [ways]
  split <;> simp_all

/-- The ways through a steady expression lead to the ends of its matches. -/
theorem follows_ways {r : Regex} (steady : r.isSteady) : r.ways.Follows r.Matches := by
  induction r with
  | empty => exact Ways.follows_empty
  | one rule set =>
    refine ⟨fun m d => ?_, fun m n mem => ?_⟩
    · simp only [mem_ways_one, Matches]
      constructor
      · rintro ⟨_, ⟨x, stop, next, mem, rfl⟩, rfl⟩
        exact ⟨x, next, mem⟩
      · rintro ⟨x, next, mem⟩
        exact ⟨_, ⟨x, d, next, mem, rfl⟩, rfl⟩
    · obtain ⟨_, _, -, -, rfl⟩ := mem_ways_one.1 mem
      rfl
  | look condition =>
    refine ⟨fun m d => ?_, fun m n mem => ?_⟩
    · simp only [mem_ways_look, Matches]
      constructor
      · rintro ⟨_, ⟨holds, rfl⟩, rfl⟩
        exact ⟨holds, rfl⟩
      · rintro ⟨holds, rfl⟩
        exact ⟨m, ⟨holds, rfl⟩, rfl⟩
    · rw [(mem_ways_look.1 mem).2]
  | group name? body ih =>
    cases name? with
    | none => exact ih steady
    | some name =>
      have ih := ih steady
      refine ⟨fun m d => ?_, fun m n mem => ?_⟩
      · rw [ways, Matches, ← ih.ends m d]
        simp only [List.mem_map, exists_exists_and_eq_and]
        rfl
      · obtain ⟨e, inside, rfl⟩ := List.mem_map.1 mem
        exact ih.looked m e inside
  | seq first second ih₁ ih₂ =>
    simp only [isSteady, Bool.and_eq_true] at steady
    exact (ih₁ steady.1).andThen (ih₂ steady.2)
  | alt preferred other ih₁ ih₂ =>
    simp only [isSteady, Bool.and_eq_true] at steady
    exact (ih₁ steady.1).either (ih₂ steady.2) fun m n => List.mem_append
  | repetition body least most greedy ih =>
    simp only [isSteady, Bool.and_eq_true] at steady
    refine (ih steady.1).between greedy least most fun unbounded _ _ => ?_
    have takes : body.startsByTaking := by simpa [unbounded] using steady.2
    exact length_lt_of_takesSomething (takesSomething_of_startsByTaking takes)

end Regex

/-! ## Groups -/

/-- The match with other names for its groups, behind groups that were captured before. -/
def Match.regroup (f : Text → Text) (earlier : List (Text × Span)) (m : Match) : Match :=
  { m with groups := m.groups.map (fun (name, span) => (f name, span)) ++ earlier }

/-- The match with groups that were captured before all of its own. -/
def Match.onto (m : Match) (earlier : List (Text × Span)) : Match :=
  { m with groups := m.groups ++ earlier }

theorem Match.regroup_id (earlier : List (Text × Span)) :
    Match.regroup id earlier = (·.onto earlier) :=
  funext fun m => by simp [regroup, onto]

namespace Ways

/-- Seen through `φ`, the ways of `W` are those of `V`. -/
def Maps (φ : Match → Match) (W V : Ways) : Prop :=
  ∀ m, V (φ m) = (W m).map φ

section

variable {φ : Match → Match} {W W' V V' : Ways}

theorem maps_nothing (φ : Match → Match) : Maps φ (fun m => [m]) fun m => [m] :=
  fun _ => rfl

theorem Maps.andThen (h : Maps φ W V) (g : Maps φ W' V') :
    Maps φ (W.andThen W') (V.andThen V') := by
  intro m
  rw [Ways.andThen, Ways.andThen, h, List.flatMap_map, List.map_flatMap]
  exact List.flatMap_congr fun n _ => g n

theorem Maps.times (h : Maps φ W V) (n : Nat) : Maps φ (W.times n) (V.times n) := by
  induction n with
  | zero => exact maps_nothing φ
  | succ n ih => exact h.andThen ih

theorem Maps.upTo (h : Maps φ W V) (greedy : Bool) (n : Nat) :
    Maps φ (W.upTo greedy n) (V.upTo greedy n) := by
  induction n with
  | zero => exact maps_nothing φ
  | succ n ih =>
    intro m
    rw [Ways.upTo, Ways.upTo, map_arrange, h.andThen ih]
    rfl

theorem Maps.many (h : Maps φ W V) (stop : ∀ m, (φ m).stop = m.stop) (greedy : Bool) :
    Maps φ (W.many greedy) (V.many greedy) := by
  intro m
  rw [Ways.many, Ways.many, stop]
  exact h.upTo greedy _ m

theorem Maps.between (h : Maps φ W V) (stop : ∀ m, (φ m).stop = m.stop) (greedy : Bool)
    (least : Nat) (most : Option Nat) :
    Maps φ (W.between greedy least most) (V.between greedy least most) := by
  cases most with
  | some most => exact (h.times least).andThen (h.upTo greedy _)
  | none => exact (h.times least).andThen (h.many stop greedy)

end

end Ways

namespace Regex

/-- The expression with other names for its groups. -/
def rename (f : Text → Text) : Regex → Regex
  | group name? body => group (name?.map f) (rename f body)
  | seq a b => seq (rename f a) (rename f b)
  | alt a b => alt (rename f a) (rename f b)
  | repetition body least most greedy => repetition (rename f body) least most greedy
  | r => r

theorem rename_id (r : Regex) : r.rename id = r := by
  induction r <;> simp_all [rename]

/-- Which groups there are makes no difference to the ways. -/
theorem maps_ways (f : Text → Text) (earlier : List (Text × Span)) (r : Regex) :
    Ways.Maps (Match.regroup f earlier) r.ways (r.rename f).ways := by
  induction r with
  | empty => exact Ways.maps_nothing _
  | one rule set =>
    intro m
    simp only [rename, ways, Match.regroup]
    split
    · split <;> rfl
    · rfl
  | look condition =>
    intro m
    simp only [rename, ways]
    cases holds : condition.holds m.stop <;> simp [Match.regroup, holds]
  | group name? body ih =>
    cases name? with
    | none => exact ih
    | some name =>
      intro m
      rw [rename, Option.map_some, ways, ways, ih, List.map_map, List.map_map]
      rfl
  | seq first second ih₁ ih₂ => exact ih₁.andThen ih₂
  | alt preferred other ih₁ ih₂ =>
    intro m
    rw [rename, ways, ways, ih₁, ih₂, List.map_append]
  | repetition body least most greedy ih => exact ih.between (fun _ => rfl) greedy least most

/-- Groups captured before make no difference. -/
theorem ways_onto (r : Regex) (m : Match) (earlier : List (Text × Span)) :
    r.ways (m.onto earlier) = (r.ways m).map (·.onto earlier) := by
  have := maps_ways id earlier r m
  simpa only [rename_id, Match.regroup_id] using this

end Regex

end RulesText
