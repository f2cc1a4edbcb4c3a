import RulesText.Proofs.Regex.Obstacles

/-!
# Runs of characters

A greedy repetition of a set of characters takes the longest run of them.
-/

namespace RulesText.Regex

open Next (once orElse)

variable {rule : CaseRule} {set : CharSet} {first : Nat} {next : Next} {limit : Text}
  {passed : Passed} {c d : Cursor} {m r : Match}

/-- A repetition has passed its two joins before the place only, and the second one at it. -/
def PassedBehind (first : Nat) (c : Cursor) (passed : Passed) : Prop :=
  ∀ p ∈ passed, (p.join = first ∧ p.offset < c.offset) ∨ (p.join = first + 1 ∧ p.offset ≤ c.offset)

/-- All passed joins are those of a repetition. -/
def PassedWithin (first : Nat) (passed : Passed) : Prop :=
  ∀ p ∈ passed, p.join = first ∨ p.join = first + 1

theorem PassedBehind.within (h : PassedBehind first c passed) : PassedWithin first passed :=
  fun p mem => (h p mem).imp And.left And.left

theorem PassedWithin.insert (h : PassedWithin first passed) {p : Passage}
    (join : p.join = first ∨ p.join = first + 1) : PassedWithin first (passed.insert p) := by
  intro q mem
  rcases mem_insert_iff.1 mem with rfl | mem
  · exact join
  · exact h q mem

/-- What is done behind a join that has not been passed. -/
theorem once_of_notMem {join : Nat} (new : ⟨join, m.looked, m.stop.offset⟩ ∉ passed) :
    once join next m passed = next m (passed.insert ⟨join, m.looked, m.stop.offset⟩) :=
  if_neg new

theorem PassedBehind.notMem (h : PassedBehind first c passed) (looked : Bool) :
    ⟨first, looked, c.offset⟩ ∉ passed := by
  intro mem
  rcases h _ mem with ⟨-, lt⟩ | ⟨eq, -⟩
  · exact Nat.lt_irrefl _ lt
  · exact absurd eq (Nat.ne_of_lt (Nat.lt_succ_self first))

/-- The joins that a round has passed when it has taken a character. -/
theorem PassedBehind.round {x : Char} (h : PassedBehind first m.stop passed)
    (eq : m.stop.next? = some (x, d)) :
    PassedBehind first d ((passed.insert ⟨first, m.looked, m.stop.offset⟩).insert
      ⟨first + 1, m.looked, d.offset⟩) := by
  have lt := Cursor.offset_lt_of_next? eq
  intro p mem
  rcases mem_insert_iff.1 mem with rfl | mem
  · exact .inr ⟨rfl, Nat.le_refl _⟩
  rcases mem_insert_iff.1 mem with rfl | mem
  · exact .inl ⟨rfl, lt⟩
  · rcases h p mem with ⟨join, before⟩ | ⟨join, before⟩
    · exact .inl ⟨join, Nat.lt_trans before lt⟩
    · exact .inr ⟨join, Nat.le_of_lt (Nat.lt_of_le_of_lt before lt)⟩

theorem PassedBehind.notMem_second {x : Char} (h : PassedBehind first m.stop passed)
    (eq : m.stop.next? = some (x, d)) :
    ⟨first + 1, m.looked, d.offset⟩ ∉ passed.insert ⟨first, m.looked, m.stop.offset⟩ := by
  have lt := Cursor.offset_lt_of_next? eq
  intro mem
  rcases mem_insert_iff.1 mem with same | mem
  · have := congrArg Passage.join same
    simp at this
  · rcases h _ mem with ⟨join, -⟩ | ⟨-, le⟩
    · simp at join
    · exact Nat.lt_irrefl _ (Nat.lt_of_lt_of_le lt le)

theorem take_of_next? {x : Char} {e : Cursor} (eq : m.stop.next? = some (x, e))
    (mem : set.contains rule x = true) :
    Searcher.take rule set next m passed = next { m with stop := e } passed := by
  rw [Searcher.take, eq]
  exact if_pos mem

/-- A round takes a character and goes on behind it. -/
theorem once_take_once {x : Char} {e : Cursor} (behind : PassedBehind first m.stop passed)
    (eq : m.stop.next? = some (x, e)) (mem : set.contains rule x = true) :
    once first (Searcher.take rule set (once (first + 1) next)) m passed =
      next { m with stop := e } ((passed.insert ⟨first, m.looked, m.stop.offset⟩).insert
        ⟨first + 1, m.looked, e.offset⟩) := by
  have new : ⟨first + 1, m.looked, e.offset⟩ ∉
      passed.insert ⟨first, m.looked, m.stop.offset⟩ := behind.notMem_second eq
  rw [once_of_notMem (behind.notMem _), take_of_next? eq mem]
  exact once_of_notMem (m := { m with stop := e }) new

/-- A repetition fails where the next character is not in the set. -/
theorem followLoop_error (next : Next) (limit : Text) (behind : PassedBehind first m.stop passed)
    (stop : ∀ x e, m.stop.next? = some (x, e) → set.contains rule x = false) :
    ∃ passed', Searcher.followLoop true (Searcher.take rule set) first next limit m passed =
      .error passed' ∧ PassedWithin first passed' := by
  have round : ∀ (f : Next) passed', Searcher.take rule set f m passed' = .error passed' := by
    intro f passed'
    rw [Searcher.take]
    split
    · rename_i x e eq
      rw [stop x e eq]
      rfl
    · rfl
  refine ⟨passed.insert ⟨first, m.looked, m.stop.offset⟩, ?_, behind.within.insert (.inl rfl)⟩
  cases limit with
  | nil => rw [Searcher.followLoop, once_of_notMem (behind.notMem _), round]
  | cons y limit =>
    simp only [Searcher.followLoop]
    rw [once_of_notMem (behind.notMem _), round]

/-- A greedy repetition goes on behind the longest run of characters of the set. -/
theorem followLoop_run {x : Char} {s : Text} (behind : PassedBehind first m.stop passed)
    (run : m.stop.Through (x :: s) d) (all : ∀ y ∈ x :: s, set.contains rule y = true)
    (stop : ∀ y e, d.next? = some (y, e) → set.contains rule y = false)
    (enough : s.length ≤ limit.length)
    (ok : ∀ passed', PassedWithin first passed' → next { m with stop := d } passed' = .ok r) :
    Searcher.followLoop true (Searcher.take rule set) first next limit m passed = .ok r := by
  induction s generalizing m x passed limit with
  | nil =>
    obtain ⟨e, eq, rest⟩ := run.cons
    obtain rfl := rest.eq
    have behind' := behind.round eq
    cases limit with
    | nil =>
      rw [Searcher.followLoop, once_take_once behind eq (all x (by simp))]
      exact ok _ behind'.within
    | cons y limit =>
      obtain ⟨passed', err, within⟩ := followLoop_error next limit
        (m := { m with stop := d }) behind' stop
      simp only [Searcher.followLoop]
      rw [once_take_once behind eq (all x (by simp))]
      simp only [if_true, Next.orElse, err]
      exact ok passed' within
  | cons z s ih =>
    obtain ⟨e, eq, rest⟩ := run.cons
    cases limit with
    | nil => simp at enough
    | cons y limit =>
      have again := ih (m := { m with stop := e }) (behind.round eq) rest
        (fun y mem => all y (List.mem_cons_of_mem _ mem))
        (show s.length ≤ limit.length from Nat.le_of_succ_le_succ enough) ok
      simp only [Searcher.followLoop]
      rw [once_take_once behind eq (all x (by simp))]
      simp only [if_true, Next.orElse, again]
      rfl

end RulesText.Regex
