import Mathlib.Data.List.Forall2
import RulesText.Proofs.Regex.Reading
import RulesText.Proofs.Regex.Search

/-!
# Words in patterns and in texts

A word of lowercase letters stands for itself in a pattern. Where a text goes on with such a word
and one of several words has to be taken, only this word leads on if nothing can be taken in the
middle of a word, however the words are ordered and whatever they begin with.

## Main definitions

* `Text.IsLowerWord`: a word of lowercase ASCII letters.
* `Ways.Stuck`: ways that do not begin in the middle of a word.

## Main statements

* `Regex.head?_words`: of several words, the one that is there is taken.
* `Regex.occursIn_anchored_word`: without regard to case, a lowercase word is only itself.
-/

namespace RulesText

/-! ## Lowercase letters -/

namespace Text

/-- A word of lowercase ASCII letters. -/
structure IsLowerWord (w : Text) : Prop where
  ne_nil : w ≠ []
  lower : ∀ c ∈ w, c.isLower

instance (w : Text) : Decidable (IsLowerWord w) :=
  decidable_of_iff (w ≠ [] ∧ w.all Char.isLower) (by
    rw [List.all_eq_true]
    exact ⟨fun h => ⟨h.1, h.2⟩, fun h => ⟨h.1, h.2⟩⟩)

def lowercaseLetters : Text :=
  "abcdefghijklmnopqrstuvwxyz"

theorem mem_lowercaseLetters {c : Char} (lower : c.isLower) : c ∈ lowercaseLetters := by
  have bounds : 97 ≤ c.toNat ∧ c.toNat ≤ 122 := by
    obtain ⟨low, high⟩ := Bool.and_eq_true_iff.1 lower
    exact ⟨of_decide_eq_true low, of_decide_eq_true high⟩
  have all : ∀ n < 123, 97 ≤ n → Char.ofNat n ∈ lowercaseLetters := by decide
  have mem := all c.toNat (by omega) bounds.1
  rwa [Char.ofNat_toNat] at mem

/-- What can be checked of all letters holds for each of them. -/
theorem of_isLower {p : Char → Bool} (all : lowercaseLetters.all p) {c : Char}
    (lower : c.isLower) : p c :=
  List.all_eq_true.1 all c (mem_lowercaseLetters lower)

theorem isWordChar_of_isLower {c : Char} (lower : c.isLower) : isWordChar c :=
  of_isLower (by decide +kernel) lower

theorem not_isBlank_of_isLower {c : Char} (lower : c.isLower) : isBlank c = false := by
  have all : lowercaseLetters.all fun c => !isBlank c := by decide +kernel
  simpa using of_isLower all lower

/-- A lowercase letter is no case variant of another one. -/
theorem eq_of_mem_caseVariants {c d : Char} (lower : c.isLower) (lower' : d.isLower)
    (mem : d ∈ caseVariants c) : d = c := by
  have all : lowercaseLetters.all fun c => lowercaseLetters.all fun d =>
      !(caseVariants c).contains d || d == c := by decide +kernel
  have other := of_isLower (of_isLower all lower) lower'
  rw [List.contains_iff_mem.2 mem] at other
  simpa using other

end Text

/-! ## Going past a text -/

namespace Cursor

variable {c : Cursor} {s u : Text}

@[simp] theorem past_nil (c : Cursor) : c.past [] = c := rfl

theorem past_append (c : Cursor) (s u : Text) : c.past (s ++ u) = (c.past s).past u := by
  simp [past, List.drop_drop, Nat.add_assoc]

theorem ahead_past (h : c.ahead = s ++ u) : (c.past s).ahead = u := by
  simp [past, h]

theorem behindIs_past {p : Char → Bool} (ne : s ≠ []) (all : ∀ x ∈ s, p x) :
    (c.past s).behindIs p := by
  obtain ⟨front, x, rfl⟩ := List.eq_nil_or_concat s |>.resolve_left ne
  have own := all x (by simp)
  simpa [past, behindIs] using own

/-- A place in the middle of a word. -/
structure InWord (c : Cursor) : Prop where
  behind : c.behindIs Char.isLower
  ahead : c.aheadIs Char.isLower

end Cursor

/-- The match extended by a text that is ahead. -/
def Match.past (m : Match) (s : Text) : Match :=
  { m with stop := m.stop.past s }

@[simp] theorem Match.past_nil (m : Match) : m.past [] = m := rfl

theorem Match.past_append (m : Match) (s u : Text) : m.past (s ++ u) = (m.past s).past u := by
  rw [past, Cursor.past_append]
  rfl

/-- In the middle of a word there is no way. -/
def Ways.Stuck (W : Ways) : Prop :=
  ∀ m, m.stop.InWord → W m = []

theorem Ways.Stuck.andThen {W : Ways} (h : W.Stuck) (V : Ways) : (W.andThen V).Stuck :=
  fun m inside => by rw [Ways.andThen, h m inside, List.flatMap_nil]

namespace Regex

variable {w : Text} {ws : List Text} {m : Match} {r : Regex} {rs : List Regex}

/-! ## Ways through composed expressions -/

theorem ways_branchOf (rs : List Regex) : (branchOf rs).ways = chain rs := by
  rw [branchOf, ways_sequence]
  induction rs with
  | nil => rfl
  | cons r rs ih => rw [List.flatMap_cons, chain_append, chain_items, ih]; rfl

theorem ways_branches (r : Regex) (rs : List Regex) (m : Match) :
    (branches r rs).ways m = (r :: rs).flatMap (·.ways m) := by
  induction rs generalizing r with
  | nil => simp [branches]
  | cons s rs ih => rw [branches, ways, ih]; rfl

/-- What is done before a choice can be done in each branch, if there is one way to do it. -/
theorem flatMap_flatMap_of_single {α β γ : Type} {l : List α} (single : l.length ≤ 1)
    (k : List β) (f : β → α → List γ) :
    (l.flatMap fun a => k.flatMap fun b => f b a) = k.flatMap fun b => l.flatMap (f b) := by
  cases l with
  | nil => simp
  | cons a l =>
    obtain rfl := List.eq_nil_of_length_eq_zero (Nat.le_zero.1 (Nat.le_of_succ_le_succ single))
    simp

theorem length_chain_le_one (single : ∀ r ∈ rs, ∀ m, (r.ways m).length ≤ 1) (m : Match) :
    (chain rs m).length ≤ 1 := by
  induction rs generalizing m with
  | nil => exact Nat.le_refl 1
  | cons r rs ih =>
    obtain ⟨own, others⟩ := List.forall_mem_cons.1 single
    change ((r.ways m).flatMap (chain rs)).length ≤ 1
    have one := own m
    cases first : r.ways m with
    | nil => simp
    | cons n later =>
      rw [first] at one
      obtain rfl := List.eq_nil_of_length_eq_zero (Nat.le_zero.1 (Nat.le_of_succ_le_succ one))
      rw [List.flatMap_singleton]
      exact ih others n

/-- The ways through a choice are those through its branches, if there is at most one way through
each item that all of several branches start with. -/
theorem ways_oneOf_of_start (nonempty : rs ≠ [])
    (single : 1 < rs.length → ∀ start, (∀ r ∈ rs, start <+: r.items) →
      ∀ i ∈ start, ∀ m, (i.ways m).length ≤ 1) (m : Match) :
    (oneOf rs).ways m = rs.flatMap (·.ways m) := by
  match rs, nonempty with
  | [r], _ => rw [oneOf_singleton, List.flatMap_singleton]
  | r :: s :: rs, _ =>
    rcases firstOf_cases r (s :: rs) with eq | ⟨start, rest, eq, parts⟩
    · rw [oneOf, eq, ways_branches]
    · have start_single : (chain start m).length ≤ 1 := by
        refine length_chain_le_one (single (by simp) start fun q mem => ?_) m
        obtain ⟨later, items, -⟩ := parts q mem
        exact items ▸ List.prefix_append start later
      have each : ∀ q ∈ r :: s :: rs, (chain start m).flatMap (rest q).ways = q.ways m := by
        intro q mem
        obtain ⟨later, items, same⟩ := parts q mem
        rw [← chain_items q, items, chain_append, same, ways_sequence]
        rfl
      have last : chain [branches (rest r) ((s :: rs).map rest)] = fun n =>
          (r :: s :: rs).flatMap fun q => (rest q).ways n := by
        rw [chain_singleton]
        funext n
        rw [ways_branches, ← List.map_cons, List.flatMap_map]
      rw [oneOf, eq, ways_sequence, chain_append, Ways.andThen, last,
        flatMap_flatMap_of_single start_single]
      exact List.flatMap_congr each

/-- The ways through a choice are those through its branches, if there is at most one way through
each item. -/
theorem ways_oneOf (nonempty : rs ≠ [])
    (single : ∀ r ∈ rs, ∀ i ∈ r.items, ∀ m, (i.ways m).length ≤ 1) (m : Match) :
    (oneOf rs).ways m = rs.flatMap (·.ways m) := by
  refine ways_oneOf_of_start nonempty (fun _ start common i mem => ?_) m
  obtain ⟨r, own⟩ := List.exists_mem_of_ne_nil rs nonempty
  exact single r own i ((common r own).subset mem)

/-! ## One word -/

theorem branchOf_chars (w : Text) : branchOf (w.map char) = literal w := by
  have items : ∀ r ∈ w.map char, r.items = [r] := by
    intro r mem
    obtain ⟨c, -, rfl⟩ := List.mem_map.1 mem
    rfl
  rw [branchOf, List.flatMap_congr items, List.flatMap_singleton']
  rfl

theorem ways_char (c : Char) (m : Match) :
    (char c).ways m = if [c] <+: m.stop.ahead then [m.past [c]] else [] := by
  obtain ⟨⟨behind, ahead, offset⟩, groups, looked⟩ := m
  cases ahead with
  | nil => simp [ways, char, Cursor.next?]
  | cons x ahead =>
    by_cases eq : c = x <;>
      simp [ways, char, Cursor.next?, eq, Match.past, Cursor.past]

/-- A word is taken where it is ahead. -/
theorem chain_chars (w : Text) (m : Match) :
    chain (w.map char) m = if w <+: m.stop.ahead then [m.past w] else [] := by
  induction w generalizing m with
  | nil => simp [chain, Match.past]
  | cons c w ih =>
    change ((char c).ways m).flatMap (chain (w.map char)) = _
    rw [ways_char]
    by_cases first : [c] <+: m.stop.ahead
    · obtain ⟨ahead, eq⟩ := first
      have rest : (m.past [c]).stop.ahead = ahead := Cursor.ahead_past eq.symm
      have all : c :: w <+: m.stop.ahead ↔ w <+: ahead := by
        rw [← eq, List.singleton_append, List.cons_prefix_cons]
        simp
      have past : (m.past [c]).past w = m.past (c :: w) := (Match.past_append m [c] w).symm
      simp only [if_pos (show [c] <+: m.stop.ahead from ⟨ahead, eq⟩), List.flatMap_singleton, ih,
        rest, all, past]
    · have none : ¬c :: w <+: m.stop.ahead := fun pre =>
        first ((List.prefix_append [c] w).trans pre)
      rw [if_neg first, if_neg none, List.flatMap_nil]

/-- The ways through several words are those through each of them. -/
theorem ways_oneOf_words (nonempty : ws ≠ []) (m : Match) :
    (oneOf (ws.map literal)).ways m = ws.flatMap fun a => chain (a.map char) m := by
  have single : ∀ r ∈ ws.map literal, ∀ i ∈ r.items, ∀ m, (i.ways m).length ≤ 1 := by
    intro r mem i item m
    obtain ⟨a, -, rfl⟩ := List.mem_map.1 mem
    rw [literal, items_sequence] at item
    obtain ⟨r, mem, item⟩ := List.mem_flatMap.1 item
    obtain ⟨c, -, rfl⟩ := List.mem_map.1 mem
    obtain rfl := List.mem_singleton.1 item
    rw [ways_char]
    split <;> simp
  rw [ways_oneOf (by simpa using nonempty) single, List.flatMap_map]
  exact List.flatMap_congr fun a _ => by rw [literal, ways_sequence]

/-- A word that is not the one ahead leads nowhere, where no way begins inside a word. -/
theorem flatMap_chain_chars {F : Ways} (stuck : F.Stuck) {a t : Text} (word : w.IsLowerWord)
    (other : a.IsLowerWord) (ahead : m.stop.ahead = w ++ t)
    (ends : t.head?.any Char.isLower = false) :
    (chain (a.map char) m).flatMap F = if w = a then F (m.past w) else [] := by
  rw [chain_chars]
  by_cases eq : w = a
  · subst eq
    rw [if_pos ⟨t, ahead.symm⟩, if_pos rfl, List.flatMap_singleton]
  rw [if_neg eq]
  split
  · rename_i pre
    rw [List.flatMap_singleton]
    rcases List.prefix_or_prefix_of_prefix (ahead ▸ pre) (List.prefix_append w t) with
      ⟨u, rfl⟩ | ⟨u, rfl⟩
    · -- the shorter word ends inside the one ahead
      obtain ⟨x, u, rfl⟩ : ∃ x v, u = x :: v :=
        List.exists_cons_of_ne_nil (by rintro rfl; simp at eq)
      refine stuck _ ⟨Cursor.behindIs_past other.ne_nil other.lower, ?_⟩
      have rest : (m.past a).stop.ahead = x :: u ++ t :=
        Cursor.ahead_past (by rw [ahead, List.append_assoc])
      rw [Cursor.aheadIs, rest]
      exact word.lower x (by simp)
    · -- the longer word does not go on behind the one ahead
      obtain ⟨x, u, rfl⟩ : ∃ x v, u = x :: v :=
        List.exists_cons_of_ne_nil (by rintro rfl; simp at eq)
      rw [ahead, List.prefix_append_right_inj] at pre
      obtain ⟨t, rfl⟩ := pre
      have lower : x.isLower := other.lower x (by simp)
      simp [lower] at ends
  · rfl

/-- Of several words, the one that is there is taken. -/
theorem head?_words {F : Ways} (stuck : F.Stuck) {t : Text} (word : w.IsLowerWord)
    (others : ∀ a ∈ ws, a.IsLowerWord) (ahead : m.stop.ahead = w ++ t)
    (ends : t.head?.any Char.isLower = false) :
    ((ws.flatMap fun a => chain (a.map char) m).flatMap F).head? =
      if w ∈ ws then (F (m.past w)).head? else none := by
  induction ws with
  | nil => rfl
  | cons a ws ih =>
    obtain ⟨own, others⟩ := List.forall_mem_cons.1 others
    rw [List.flatMap_cons, List.flatMap_append, List.head?_append, ih others,
      flatMap_chain_chars stuck word own ahead ends]
    by_cases eq : w = a
    · subst eq
      by_cases mem : w ∈ ws <;> simp [mem]
    · by_cases mem : w ∈ ws <;> simp [eq, mem]

/-! ## Reading words -/

theorem stands_of_lower (lower : ∀ c ∈ w, c.isLower) : Stands w := by
  have none : ∀ c : Char, c.isLower = false → w.head? ≠ some c := by
    intro c not first
    have := lower c (List.mem_of_mem_head? first)
    rw [not] at this
    contradiction
  exact ⟨none _ (by decide), none _ (by decide)⟩

namespace Reads

variable {caseless : Bool}

theorem letter {c : Char} (lower : c.isLower) :
    Reads caseless [c] [(initialFlags caseless).char c] := by
  have plain : readLexeme? false [c] = some (.char c, []) := by
    unfold readLexeme?
    dsimp only
    split <;> first | rfl | exact absurd lower (by decide)
  exact .char plain

theorem letters (lower : ∀ c ∈ w, c.isLower) :
    Reads caseless w (w.map (initialFlags caseless).char) := by
  induction w with
  | nil => exact .nil
  | cons c w ih =>
    obtain ⟨own, others⟩ := List.forall_mem_cons.1 lower
    exact (letter own).append (ih others) (stands_of_lower others)

end Reads

/-! ## Words as members -/

theorem matches_whole {c d : Cursor} :
    r.whole.Matches c d ↔ c.atStart ∧ r.Matches c d ∧ d.atEnd := by
  rw [whole, matches_sequence_iff]
  simp only [MatchesAll, matchesAll_append, matchesAll_items_iff, Matches, Look.holds]
  constructor
  · rintro ⟨_, ⟨start, rfl⟩, e, inner, _, ⟨stop, rfl⟩, rfl⟩
    exact ⟨start, inner, stop⟩
  · rintro ⟨start, inner, stop⟩
    exact ⟨c, ⟨start, rfl⟩, d, inner, d, ⟨stop, rfl⟩, rfl⟩

/-- A pattern that must match a whole text occurs in it if it matches it. -/
theorem occursIn_whole_iff {t : Text} : r.whole.searcher.occursIn t ↔
    ∃ d : Cursor, d.ahead = [] ∧ r.Matches (.start t) d := by
  rw [occursIn_iff]
  constructor
  · rintro ⟨c, d, place, step⟩
    obtain ⟨start, inner, stop⟩ := matches_whole.1 step
    have first : c = .start t := by
      have behind : c.behind = [] := by simpa [Cursor.atStart] using start
      refine place.eq_of_offset (Cursor.isPlace_start t) ?_
      rw [place.offset, behind]
      rfl
    subst first
    exact ⟨d, by simpa [Cursor.atEnd] using stop, inner⟩
  · rintro ⟨d, stop, inner⟩
    exact ⟨.start t, d, Cursor.isPlace_start t,
      matches_whole.2 ⟨rfl, inner, by simp [Cursor.atEnd, stop]⟩⟩

/-- One character after the other is taken. -/
theorem matchesAll_ones {sets : List (CaseRule × CharSet)} {c d : Cursor} :
    MatchesAll (sets.map fun p => one p.1 p.2) c d ↔
      ∃ u, c.Through u d ∧ List.Forall₂ (fun p x => p.2.contains p.1 x) sets u := by
  induction sets generalizing c with
  | nil =>
    constructor
    · rintro rfl
      exact ⟨[], .refl _, .nil⟩
    · rintro ⟨u, through, same⟩
      cases same
      exact through.eq
  | cons p sets ih =>
    simp only [List.map_cons, MatchesAll, ih]
    constructor
    · rintro ⟨e, ⟨x, next, mem⟩, u, through, same⟩
      exact ⟨x :: u, (Cursor.next?_eq_some_iff.1 next).trans through, .cons mem same⟩
    · rintro ⟨u, through, same⟩
      cases same with
      | cons mem same =>
        obtain ⟨e, next, rest⟩ := through.cons
        exact ⟨e, ⟨_, next, mem⟩, _, rest, same⟩

/-- Lowercase letters are the same without regard to case only if they are the same. -/
theorem contains_single_caseless {x y : Char} (lower : x.isLower) (lower' : y.isLower) :
    (CharSet.single x).contains (.variants .unicode) y ↔ x = y := by
  have range : ∀ z, (CharSet.range x x).contains (.variants .unicode) z ↔ x = z := by
    intro z
    simp only [CharSet.contains, Bool.and_eq_true, decide_eq_true_eq]
    constructor
    · intro bounds
      exact Char.le_antisymm bounds.1 bounds.2
    · rintro rfl
      exact ⟨Char.le_refl _, Char.le_refl _⟩
  have mem : (CharSet.single x).contains (.variants .unicode) y ↔
      x = y ∨ x ∈ Text.caseVariants y := by
    rw [CharSet.single, CharSet.contains, bne_iff_ne, Bool.ne_false_iff, CharSet.closure,
      Bool.or_eq_true, List.any_eq_true, range]
    simp only [range, CaseRule.variantsOf, exists_eq_right']
  rw [mem]
  exact ⟨fun h => h.elim id fun h => Text.eq_of_mem_caseVariants lower' lower h, .inl⟩

theorem forall₂_caseless_iff {u : Text} (lower : ∀ c ∈ w, c.isLower)
    (lower' : ∀ c ∈ u, c.isLower) :
    List.Forall₂ (fun x y => (CharSet.single x).contains (.variants .unicode) y) w u ↔ w = u := by
  induction w generalizing u with
  | nil => rw [List.forall₂_nil_left_iff, eq_comm]
  | cons x w ih =>
    cases u with
    | nil => simp
    | cons y u =>
      obtain ⟨own, lower⟩ := List.forall_mem_cons.1 lower
      obtain ⟨own', lower'⟩ := List.forall_mem_cons.1 lower'
      rw [List.forall₂_cons, contains_single_caseless own own', ih lower lower', List.cons.injEq]

/-- Without regard to case, a lowercase word among lowercase words is only itself. -/
theorem occursIn_anchored_word {a : Text} (word : w.IsLowerWord) (other : a.IsLowerWord)
    (parsed : parse? (anchored w) true = some r) : r.searcher.occursIn a ↔ w = a := by
  have letters : HasBranches true w [branchOf (w.map (initialFlags true).char)] :=
    (Reads.letters word.lower).hasBranches
  rw [letters.anchored parsed, oneOf_singleton, occursIn_whole_iff]
  have ones : w.map (initialFlags true).char =
      (w.map fun c => (CaseRule.variants .unicode, CharSet.single c)).map fun p => one p.1 p.2 := by
    rw [List.map_map]
    rfl
  simp only [matches_branchOf, ones, matchesAll_ones, List.forall₂_map_left_iff]
  constructor
  · rintro ⟨d, stop, u, through, chars⟩
    have whole : a = u := by
      have := through.ahead
      rwa [stop, List.append_nil] at this
    subst whole
    exact (forall₂_caseless_iff word.lower other.lower).1 chars
  · rintro rfl
    refine ⟨(Cursor.start w).past w, ?_, w, ?_,
      (forall₂_caseless_iff other.lower other.lower).2 rfl⟩
    · exact Cursor.ahead_past (List.append_nil w).symm
    · exact Cursor.through_past List.prefix_rfl

end Regex

end RulesText
