import RulesText.Proofs.Regex.Search
import RulesText.Regex.Replace

/-!
# Texts with matches replaced

Going through a text, each match that takes something is replaced as a whole and every other
character is copied. So what is left stands in its order, and a stretch of the result without the
mark that stands for matches is a stretch of the text, with the same characters around it or with
matches that were replaced there.

## Main statements

* `Regex.Searcher.replaceFrom_induction`: a replacement step by step.
* `Regex.Searcher.filter_replaceFrom_sublist`: nothing is added but replacements.
* `Regex.Searcher.exists_stretch`: where a stretch of the result is from.
-/

namespace RulesText.Regex

/-- A match ends at the place where it begins or behind it. -/
theorem reaches_of_matchAt? {r : Regex} {c : Cursor} {m : Match}
    (found : r.searcher.matchAt? c = some m) : c.Reaches m.stop :=
  matches_forward r c m.stop (matches_of_carries ((sound_searcher r .atOnce).matchAt? found))

namespace Searcher

variable {s : Searcher} {replacement u after p q : Text} {mark x : Char} {c d e : Cursor}
  {m : Match}

/-- The match at the place is replaced: it takes something. -/
structure Replaced (s : Searcher) (c : Cursor) (m : Match) : Prop where
  found : s.matchAt? c = some m
  shorter : m.stop.ahead.length < c.ahead.length

/-- Going through a text, a match is replaced or a character is copied. -/
theorem replaceFrom_induction {motive : Cursor → Text → Prop}
    (done : ∀ c : Cursor, c.ahead = [] → motive c [])
    (replaced : ∀ c m, s.Replaced c m → motive m.stop (s.replaceFrom replacement m.stop) →
      motive c (replacement ++ s.replaceFrom replacement m.stop))
    (copied : ∀ c x d, c.next? = some (x, d) → (∀ m, ¬s.Replaced c m) →
      motive d (s.replaceFrom replacement d) → motive c (x :: s.replaceFrom replacement d))
    (c : Cursor) : motive c (s.replaceFrom replacement c) := by
  have next : ∀ {c : Cursor} {x : Char} {rest : Text}, c.ahead = x :: rest →
      c.next? = some (x, ⟨x :: c.behind, rest, c.offset + x.utf8Size⟩) := fun eq => by
    rw [Cursor.next?, eq]
  fun_induction replaceFrom s replacement c with
  | case1 c atEnd => exact done c atEnd
  | case2 c x rest ahead m found shorter ih => exact replaced c m ⟨found, shorter⟩ ih
  | case3 c x rest ahead m found longer ih =>
    refine copied c x _ (next ahead) (fun n replaced => ?_) ih
    obtain rfl := Option.some.inj (found.symm.trans replaced.found)
    exact longer replaced.shorter
  | case4 c x rest ahead none ih =>
    refine copied c x _ (next ahead) (fun n replaced => ?_) ih
    cases none.symm.trans replaced.found

theorem replaceFrom_of_atEnd (atEnd : c.ahead = []) : s.replaceFrom replacement c = [] := by
  fun_cases replaceFrom s replacement c <;> simp_all

theorem replaceFrom_of_replaced (replaced : s.Replaced c m) :
    s.replaceFrom replacement c = replacement ++ s.replaceFrom replacement m.stop := by
  obtain ⟨found, shorter⟩ := replaced
  fun_cases replaceFrom s replacement c <;> simp_all

/-- Of what no replacement has, nothing is added. -/
theorem filter_replaceFrom_sublist (forward : ∀ c m, s.matchAt? c = some m → c.Reaches m.stop)
    {f : Char → Bool} (none : replacement.filter f = []) (c : Cursor) :
    ((s.replaceFrom replacement c).filter f).Sublist (c.ahead.filter f) := by
  refine replaceFrom_induction (motive := fun c t => (t.filter f).Sublist (c.ahead.filter f))
    (fun c atEnd => List.nil_sublist _) (fun c m replaced ih => ?_) (fun c x d next _ ih => ?_) c
  · obtain ⟨u, through⟩ := forward c m replaced.found
    rw [List.filter_append, none, List.nil_append, through.ahead, List.filter_append]
    exact ih.trans (List.sublist_append_right _ _)
  · rw [Cursor.ahead_of_next? next, List.filter_cons, List.filter_cons]
    split
    · exact ih.cons_cons x
    · exact ih

/-! ## Stretches of the result -/

/-- What the result has before a place is what the text has there, or a match was replaced that
ends there. -/
structure CopiedTo (s : Searcher) (mark : Char) (c : Cursor) (p : Text) (d : Cursor) : Prop where
  reaches : c.Reaches d
  start : p = [] → d = c
  behind : p ≠ [] → p.getLast? = d.behind.head? ∨
    p.getLast? = some mark ∧ ∃ b m, c.Reaches b ∧ s.Replaced b m ∧ m.stop = d

/-- One more character of the result: it was copied, or it marks a match that was replaced. -/
theorem CopiedTo.cons (copied : s.CopiedTo mark e p d) (onward : c.Reaches e)
    (first : some x = e.behind.head? ∨
      some x = some mark ∧ ∃ b m, c.Reaches b ∧ s.Replaced b m ∧ m.stop = e) :
    s.CopiedTo mark c (x :: p) d where
  reaches := onward.trans copied.reaches
  start := fun none => by cases none
  behind := by
    intro _
    by_cases single : p = []
    · obtain rfl := copied.start single
      rw [single]
      exact first
    · rw [List.getLast?_cons_of_ne_nil single]
      refine (copied.behind single).imp_right fun ends => ?_
      obtain ⟨last, b, m, reaches, here⟩ := ends
      exact ⟨last, b, m, onward.trans reaches, here⟩

/-- A character of the result that is no mark was copied from a place where no match was
replaced. -/
theorem exists_copied (forward : ∀ c m, s.matchAt? c = some m → c.Reaches m.stop)
    (eq : s.replaceFrom [mark] c = p ++ x :: q) (ne : x ≠ mark) :
    ∃ d e, s.CopiedTo mark c p d ∧ d.next? = some (x, e) ∧ (∀ m, ¬s.Replaced d m) ∧
      s.replaceFrom [mark] e = q := by
  revert p
  refine replaceFrom_induction (motive := fun c t => ∀ {p}, t = p ++ x :: q →
      ∃ d e, s.CopiedTo mark c p d ∧ d.next? = some (x, e) ∧ (∀ m, ¬s.Replaced d m) ∧
        s.replaceFrom [mark] e = q) ?_ ?_ ?_ c
  · intro c _ p eq
    simp at eq
  · intro c m replaced ih p eq
    cases p with
    | nil => exact absurd (List.cons.inj eq).1.symm ne
    | cons y p =>
      obtain ⟨rfl, later⟩ := List.cons.inj eq
      obtain ⟨d, e, copied, rest⟩ := ih later
      have onward := forward c m replaced.found
      exact ⟨d, e, copied.cons onward (.inr ⟨rfl, c, m, .refl c, replaced, rfl⟩), rest⟩
  · intro c y c' next unreplaced ih p eq
    cases p with
    | nil =>
      obtain ⟨rfl, rfl⟩ := List.cons.inj eq
      exact ⟨c, c', ⟨.refl c, fun _ => rfl, fun ne => absurd rfl ne⟩, next, unreplaced, rfl⟩
    | cons z p =>
      obtain ⟨rfl, later⟩ := List.cons.inj eq
      obtain ⟨d, e, copied, rest⟩ := ih later
      have behind := (Cursor.next?_eq_some_iff.1 next).behind
      refine ⟨d, e, copied.cons (Cursor.reaches_of_next? next) (.inl ?_), rest⟩
      rw [behind]
      rfl

/-- A stretch of the result without marks was copied. -/
theorem exists_through_of_replaceFrom (forward : ∀ c m, s.matchAt? c = some m → c.Reaches m.stop)
    (eq : s.replaceFrom [mark] c = u ++ after) (unmarked : mark ∉ u) :
    ∃ d, c.Through u d ∧ s.replaceFrom [mark] d = after := by
  induction u generalizing c with
  | nil => exact ⟨c, .refl c, eq⟩
  | cons x u ih =>
    have ne : x ≠ mark := fun same => unmarked (same ▸ List.mem_cons_self)
    obtain ⟨d, e, copied, next, -, rest⟩ := exists_copied forward (p := []) eq ne
    obtain rfl := copied.start rfl
    obtain ⟨f, through, rest⟩ := ih rest fun mem => unmarked (List.mem_cons_of_mem x mem)
    exact ⟨f, (Cursor.next?_eq_some_iff.1 next).trans through, rest⟩

/-- Where a stretch of the result without marks is from, and what is before it and behind it. -/
theorem exists_stretch (forward : ∀ c m, s.matchAt? c = some m → c.Reaches m.stop)
    (eq : s.replaceFrom [mark] c = p ++ u ++ after) (ne : u ≠ []) (unmarked : mark ∉ u) :
    ∃ d e, s.CopiedTo mark c p d ∧ d.Through u e ∧ (∀ m, ¬s.Replaced d m) ∧
      s.replaceFrom [mark] e = after := by
  obtain ⟨x, u, rfl⟩ := List.exists_cons_of_ne_nil ne
  rw [List.append_assoc] at eq
  have own : x ≠ mark := (List.ne_of_not_mem_cons unmarked).symm
  obtain ⟨d, e, copied, next, unreplaced, rest⟩ := exists_copied forward eq own
  obtain ⟨f, through, rest⟩ :=
    exists_through_of_replaceFrom forward rest (List.not_mem_of_not_mem_cons unmarked)
  exact ⟨d, f, copied, (Cursor.next?_eq_some_iff.1 next).trans through, unreplaced, rest⟩

/-- What the result has behind a place is what the text has there, or a match was replaced that
begins there. -/
theorem head?_replaceFrom (s : Searcher) (mark : Char) (c : Cursor) :
    (s.replaceFrom [mark] c).head? = c.ahead.head? ∨
      (s.replaceFrom [mark] c).head? = some mark ∧ ∃ m, s.Replaced c m := by
  refine replaceFrom_induction (motive := fun c t => t.head? = c.ahead.head? ∨
    t.head? = some mark ∧ ∃ m, s.Replaced c m) ?_ ?_ ?_ c
  · intro c atEnd
    exact .inl (by rw [atEnd])
  · intro c m replaced _
    exact .inr ⟨rfl, m, replaced⟩
  · intro c x d next _ _
    exact .inl (by rw [Cursor.ahead_of_next? next]; rfl)

/-- The last character of the text is copied, or a match is replaced that ends where the text
does. -/
theorem mem_replaceFrom_of_getLast? (forward : ∀ c m, s.matchAt? c = some m → c.Reaches m.stop)
    (last : c.ahead.getLast? = some x) : x ∈ s.replaceFrom replacement c ∨
      ∃ d m, c.Reaches d ∧ s.Replaced d m ∧ m.stop.ahead = [] := by
  revert last
  refine replaceFrom_induction (motive := fun c t => c.ahead.getLast? = some x → x ∈ t ∨
    ∃ d m, c.Reaches d ∧ s.Replaced d m ∧ m.stop.ahead = []) ?_ ?_ ?_ c
  · intro c atEnd last
    simp [atEnd] at last
  · intro c m replaced ih last
    have onward := forward c m replaced.found
    obtain ⟨u, through⟩ := forward c m replaced.found
    rw [through.ahead, List.getLast?_append, Option.or_eq_some_iff] at last
    rcases last with later | ⟨none, -⟩
    · refine (ih later).imp (List.mem_append_right _) fun ends => ?_
      obtain ⟨d, n, reaches, rest⟩ := ends
      exact ⟨d, n, onward.trans reaches, rest⟩
    · exact .inr ⟨c, m, .refl c, replaced, List.getLast?_eq_none_iff.1 none⟩
  · intro c y d next _ ih last
    rw [Cursor.ahead_of_next? next, List.getLast?_cons] at last
    cases later : d.ahead.getLast? with
    | none =>
      rw [later] at last
      exact .inl (Option.some.inj last ▸ List.mem_cons_self)
    | some z =>
      rw [later] at last
      refine (ih (later.trans last)).imp (List.mem_cons_of_mem y) fun ends => ?_
      obtain ⟨e, n, reaches, rest⟩ := ends
      exact ⟨e, n, (Cursor.reaches_of_next? next).trans reaches, rest⟩

end Searcher

end RulesText.Regex
