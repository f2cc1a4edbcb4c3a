import RulesText.Proofs.Regex.Priority

/-!
# Matches of a text inside a longer one

An expression that asks for nothing but word boundaries can see the surroundings of a text only at
the two ends of the text. Where there are no word characters on the outside of an end, or where no
condition is met there, the ways through the expression inside the text are the same alone and in
the longer text.

## Main definitions

* `Surroundings`: what stands before and behind a text.
* `Regex.looksFirst`, `Regex.looksLast`: whether a condition can be met at the ends of a match.
* `Ways.Embeds`: the ways inside a text are the same in the longer one.

## Main statements

* `Regex.embeds_ways`: when this is so for the ways through an expression.
-/

namespace RulesText

/-- What stands around a text. -/
structure Surroundings where
  /-- The characters before the text, nearest first. -/
  behind : Text
  /-- The characters after the text. -/
  ahead : Text
  /-- The number of bytes before the text. -/
  offset : Nat

namespace Surroundings

/-- No word character stands before the text. -/
def startsFree (s : Surroundings) : Prop :=
  s.behind.head?.any Text.isWordChar = false

/-- No word character stands after the text. -/
def endsFree (s : Surroundings) : Prop :=
  s.ahead.head?.any Text.isWordChar = false

/-- What stands around the text between two places. -/
def between (c d : Cursor) : Surroundings :=
  ⟨c.behind, d.ahead, c.offset⟩

end Surroundings

/-- The same place, in the longer text. -/
def Cursor.within (c : Cursor) (s : Surroundings) : Cursor :=
  ⟨c.behind ++ s.behind, c.ahead ++ s.ahead, s.offset + c.offset⟩

theorem Cursor.next?_within {c d : Cursor} {x : Char} {s : Surroundings}
    (h : c.next? = some (x, d)) : (c.within s).next? = some (x, d.within s) := by
  rw [next?_eq_some_iff] at h ⊢
  refine ⟨?_, ?_, ?_⟩
  · simp [within, h.ahead]
  · simp [within, h.behind]
  · simp [within, h.offset, Nat.add_assoc]

/-- The same match, in the longer text. -/
def Match.within (m : Match) (s : Surroundings) : Match where
  stop := m.stop.within s
  groups := m.groups.map fun (name, span) => (name, span.shift s.offset)
  looked := m.looked

namespace Match

variable {m n : Match} {s : Surroundings} {k : Nat}

/-- At least so many characters are left. -/
def leaves (k : Nat) (m : Match) : Bool :=
  k ≤ m.stop.ahead.length

theorem leaves_within : (m.within s).leaves (s.ahead.length + k) = m.leaves k := by
  simp only [leaves, within, Cursor.within, List.length_append, decide_eq_decide]
  omega

theorem group?_within (name : Text) :
    (m.within s).group? name = (m.group? name).map (·.shift s.offset) := by
  obtain ⟨stop, groups, looked⟩ := m
  simp only [group?, within]
  induction groups with
  | nil => rfl
  | cons p groups ih =>
    rw [List.map_cons, List.lookup_cons, List.lookup_cons]
    split
    · rfl
    · exact ih

end Match

/-! ## Ways inside a text -/

/-- Only members that lead somewhere count. -/
theorem List.flatMap_filter_of_nil {α β : Type} {p : α → Bool} {f : α → List β} {l : List α}
    (h : ∀ a ∈ l, p a = false → f a = []) : (l.filter p).flatMap f = l.flatMap f := by
  induction l with
  | nil => rfl
  | cons a l ih =>
    have ih := ih fun b mem => h b (List.mem_cons_of_mem _ mem)
    cases keep : p a with
    | true => rw [List.filter_cons_of_pos keep, List.flatMap_cons, List.flatMap_cons, ih]
    | false =>
      rw [List.filter_cons_of_neg (by simp [keep]), ih, List.flatMap_cons,
        h a List.mem_cons_self keep, List.nil_append]

namespace Ways

/-- If a condition can be met first, then not at the start of the text, unless nothing is seen
there. -/
def Admits (s : Surroundings) (first : Bool) (m : Match) : Prop :=
  first = true → m.stop.behind ≠ [] ∨ s.startsFree

/-- The ways that leave at least `k` characters of the text are the same alone and in the longer
text. -/
def Embeds (s : Surroundings) (first : Bool) (k : Nat) (W : Ways) : Prop :=
  ∀ m, Admits s first m →
    (W (m.within s)).filter (·.leaves (s.ahead.length + k)) =
      ((W m).filter (·.leaves k)).map (·.within s)

variable {s : Surroundings} {first first' : Bool} {k d : Nat} {W V : Ways} {M : Ends Cursor}

theorem flatMap_map_within {f g : Match → List Match} {l : List Match}
    (h : ∀ n ∈ l, f (n.within s) = (g n).map (·.within s)) :
    (l.map (·.within s)).flatMap f = (l.flatMap g).map (·.within s) := by
  rw [List.flatMap_map, List.map_flatMap]
  exact List.flatMap_congr h

/-- What comes second takes at least `d` characters. -/
theorem Embeds.andThen (h : W.Embeds s first (k + d)) (g : V.Embeds s first' k)
    (takes : ∀ m, ∀ n ∈ V m, n.stop.ahead.length + d ≤ m.stop.ahead.length)
    (later : ∀ m, Admits s first m → ∀ n ∈ W m, Admits s first' n) :
    (W.andThen V).Embeds s first k := by
  intro m admits
  have drop : ∀ (E : Nat) n, n.leaves (E + (k + d)) = false →
      (V n).filter (·.leaves (E + k)) = [] := by
    intro E n few
    rw [List.filter_eq_nil_iff]
    intro e mem
    have := takes n e mem
    simp only [Match.leaves, decide_eq_false_iff_not, decide_eq_true_eq] at few ⊢
    omega
  have line := List.flatMap_filter_of_nil (l := W (m.within s))
    fun n _ few => drop s.ahead.length n few
  have alone := List.flatMap_filter_of_nil (l := W m) (p := (·.leaves (k + d)))
    (f := fun n => (V n).filter (·.leaves k)) fun n _ few => by
      simpa using drop 0 n (by simpa using few)
  rw [Ways.andThen, Ways.andThen, List.filter_flatMap, List.filter_flatMap, ← line, ← alone,
    h m admits]
  exact flatMap_map_within fun n mem => g n (later m admits n (List.mem_of_mem_filter mem))

theorem Admits.reaches {m n : Match} (h : Admits s first m) (reach : m.stop.Reaches n.stop) :
    Admits s first n := by
  obtain ⟨u, through⟩ := reach
  refine fun met => (h met).imp_left fun ne nil => ne ?_
  rw [through.behind] at nil
  exact (List.append_eq_nil_iff.1 nil).2

theorem Embeds.mono (h : W.Embeds s first k)
    (sub : first = true → first' = true) : W.Embeds s first' k :=
  fun m admits => h m fun met => admits (sub met)

theorem Embeds.capture (h : W.Embeds s first k) (name : Text) :
    Embeds s first k fun m => (W m).map (·.capture name m.stop) := by
  intro m admits
  have all := congrArg (List.map (·.capture name (m.stop.within s))) (h m admits)
  rw [List.map_map] at all
  rw [List.filter_map, List.filter_map, List.map_map]
  exact all

theorem Embeds.orElse (h : W.Embeds s first k) (g : V.Embeds s first k) :
    Embeds s first k fun m => W m ++ V m := by
  intro m admits
  simp only [List.filter_append, List.map_append, h m admits, g m admits]

theorem embeds_nothing : Embeds s first k fun m => [m] := by
  intro m _
  simp only [List.filter_singleton, Match.leaves_within]
  cases m.leaves k <;> rfl

section

variable (h : W.Embeds s first k) (follows : W.Follows M) (forward : M.Forward)

include h follows forward

/-- One after the other, where what comes second may take nothing. -/
theorem Embeds.andThen_of_forward {N : Ends Cursor} (g : V.Embeds s first k)
    (follows' : V.Follows N) (forward' : N.Forward) : (W.andThen V).Embeds s first k := by
  refine Embeds.andThen (d := 0) h g (fun m n mem => ?_) fun m admits n mem => ?_
  · exact (forward' _ _ (follows'.stop_of_mem mem)).length_le
  · exact admits.reaches (forward _ _ (follows.stop_of_mem mem))

theorem Embeds.times (n : Nat) : (W.times n).Embeds s first k := by
  induction n with
  | zero => exact embeds_nothing
  | succ n ih => exact h.andThen_of_forward follows forward ih (follows.times n) forward.rounds

theorem Embeds.upTo (greedy : Bool) (n : Nat) : (W.upTo greedy n).Embeds s first k := by
  induction n with
  | zero => exact embeds_nothing
  | succ n ih =>
    intro m admits
    have again := h.andThen_of_forward follows forward ih (follows.upTo greedy n)
      fun c d ⟨_, _, rounds⟩ => forward.rounds c d rounds
    rw [Ways.upTo, Ways.upTo, filter_arrange, filter_arrange, map_arrange, again m admits,
      embeds_nothing m admits]

theorem Embeds.many (greedy : Bool) (progress : ∀ c d, M c d → d.ahead.length < c.ahead.length) :
    (W.many greedy).Embeds s first k := by
  intro m admits
  have enough : m.stop.ahead.length ≤ (m.within s).stop.ahead.length := by
    simp [Match.within, Cursor.within]
  rw [Ways.many, Ways.many, follows.upTo_congr greedy progress (Nat.le_refl _) enough]
  exact h.upTo follows forward greedy _ m admits

theorem Embeds.between (greedy : Bool) (least : Nat) (most : Option Nat)
    (progress : most = none → ∀ c d, M c d → d.ahead.length < c.ahead.length) :
    (W.between greedy least most).Embeds s first k := by
  have front := h.times follows forward least
  cases most with
  | some most =>
    exact front.andThen_of_forward (follows.times least) forward.rounds
      (h.upTo follows forward greedy _) (follows.upTo greedy _)
      fun c d ⟨_, _, rounds⟩ => forward.rounds c d rounds
  | none =>
    exact front.andThen_of_forward (follows.times least) forward.rounds
      (h.many follows forward greedy (progress rfl)) (follows.many greedy (progress rfl))
      fun c d ⟨_, rounds⟩ => forward.rounds c d rounds

end

end Ways

/-! ## Conditions at the ends -/

namespace Regex

/-- Whether a condition can be met before the first character of a match. -/
def looksFirst : Regex → Bool
  | empty | one _ _ => false
  | look _ => true
  | group _ body => looksFirst body
  | seq a b => looksFirst a || (!a.takesSomething && looksFirst b)
  | alt a b => looksFirst a || looksFirst b
  | repetition body _ _ _ => looksFirst body

/-- Whether a condition can be met behind the last character of a match. -/
def looksLast : Regex → Bool
  | empty | one _ _ => false
  | look _ => true
  | group _ body => looksLast body
  | seq a b => looksLast b || (!b.takesSomething && looksLast a)
  | alt a b => looksLast a || looksLast b
  | repetition body _ _ _ => looksLast body

/-- Whether all conditions of the expression are word boundaries. -/
def looksForWords : Regex → Bool
  | empty | one _ _ => true
  | look condition => condition == .wordBoundary
  | group _ body => looksForWords body
  | seq a b | alt a b => looksForWords a && looksForWords b
  | repetition body _ _ _ => looksForWords body

variable {r : Regex} {s : Surroundings} {k : Nat}

open Ways (Admits)

/-- A boundary inside the longer text. -/
theorem holds_wordBoundary_within {c : Cursor} (left : c.behind ≠ [] ∨ s.startsFree)
    (right : c.ahead ≠ [] ∨ s.endsFree) :
    Look.wordBoundary.holds (c.within s) = Look.wordBoundary.holds c := by
  have side : ∀ a b : Text, a ≠ [] ∨ b.head?.any Text.isWordChar = false →
      (a ++ b).head?.any Text.isWordChar = a.head?.any Text.isWordChar := by
    rintro (_ | ⟨x, a⟩) b free
    · simpa using free
    · rfl
  exact congrArg₂ WordLook.boundary.holds (side c.behind s.behind left) (side c.ahead s.ahead right)

theorem embeds_one (rule : CaseRule) (set : CharSet) :
    (one rule set).ways.Embeds s false k := by
  intro m _
  cases next : m.stop.next? with
  | none =>
    have atEnd := Cursor.next?_eq_none_iff.1 next
    have alone : (one rule set).ways m = [] := by rw [ways, next]
    rw [alone, List.filter_nil, List.map_nil, List.filter_eq_nil_iff]
    intro n mem
    obtain ⟨x, stop, next, -, rfl⟩ := mem_ways_one.1 mem
    have taken := Cursor.ahead_of_next? next
    have few := congrArg List.length taken
    simp only [Match.within, Cursor.within, atEnd, List.nil_append, List.length_cons] at few
    simp only [Match.leaves, decide_eq_true_eq]
    omega
  | some p =>
    obtain ⟨x, stop⟩ := p
    have next' : (m.within s).stop.next? = some (x, stop.within s) := Cursor.next?_within next
    rw [ways, ways, next, next']
    dsimp only
    split
    · have taken : Ways.Embeds s false k fun m => [m] := Ways.embeds_nothing
      exact taken { m with stop } fun eq => absurd eq Bool.false_ne_true
    · rfl

theorem embeds_wordBoundary (right : k ≠ 0 ∨ s.endsFree) :
    (look .wordBoundary).ways.Embeds s true k := by
  intro m admits
  by_cases inside : m.stop.ahead ≠ [] ∨ s.endsFree
  · have same : Look.wordBoundary.holds (m.within s).stop = Look.wordBoundary.holds m.stop :=
      holds_wordBoundary_within (admits rfl) inside
    rw [ways, ways, same]
    split
    · exact Ways.embeds_nothing m admits
    · rfl
  · -- at the end of the text, where the boundary may not be the same, too few characters are left
    rw [not_or, not_not] at inside
    have few : m.leaves k = false := by
      simpa [Match.leaves, inside.1] using right.resolve_right inside.2
    have none : ∀ n ∈ (look .wordBoundary).ways (m.within s),
        ¬n.leaves (s.ahead.length + k) := by
      intro n mem
      rw [(mem_ways_look.1 mem).2, Match.leaves_within, few]
      simp
    have none' : ∀ n ∈ (look .wordBoundary).ways m, ¬n.leaves k := by
      intro n mem
      rw [(mem_ways_look.1 mem).2, few]
      simp
    rw [List.filter_eq_nil_iff.2 none, List.filter_eq_nil_iff.2 none', List.map_nil]

/-- The ways inside a text are the same in a longer one, if no condition can be met at the ends
or nothing is seen there. -/
theorem embeds_ways (steady : r.isSteady) (words : r.looksForWords)
    (right : k ≠ 0 ∨ r.looksLast = false ∨ s.endsFree) : r.ways.Embeds s r.looksFirst k := by
  induction r generalizing k with
  | empty => exact Ways.embeds_nothing
  | one rule set => exact embeds_one rule set
  | look condition =>
    obtain rfl := eq_of_beq words
    exact embeds_wordBoundary (by simpa [looksLast] using right)
  | group name? body ih =>
    cases name? with
    | none => exact ih steady words right
    | some name => exact (ih steady words right).capture name
  | seq first second ih₁ ih₂ =>
    simp only [isSteady, looksForWords, Bool.and_eq_true] at steady words
    have follows₁ := follows_ways steady.1
    have follows₂ := follows_ways steady.2
    have sub : first.looksFirst = true → (seq first second).looksFirst = true := fun met => by
      simp [looksFirst, met]
    have later : ∀ m, Admits s (seq first second).looksFirst m → ∀ n ∈ first.ways m,
        Admits s second.looksFirst n := by
      intro m admits n mem met
      have step := follows₁.stop_of_mem mem
      cases takes : first.takesSomething with
      | true => exact .inl (behind_ne_nil_of_takesSomething takes step)
      | false =>
        exact admits.reaches (matches_forward first _ _ step) (by simp [looksFirst, takes, met])
    have back : second.ways.Embeds s second.looksFirst k := by
      refine ih₂ steady.2 words.2 (right.imp_right (Or.imp_left fun none => ?_))
      simp only [looksLast, Bool.or_eq_false_iff] at none
      exact none.1
    cases takes : second.takesSomething with
    | true =>
      have front := ih₁ (k := k + 1) steady.1 words.1 (.inl (Nat.succ_ne_zero k))
      refine (front.mono sub).andThen back (fun m n mem => ?_) later
      exact length_lt_of_takesSomething takes (follows₂.stop_of_mem mem)
    | false =>
      have front : first.ways.Embeds s first.looksFirst k := by
        refine ih₁ steady.1 words.1 (right.imp_right (Or.imp_left fun none => ?_))
        simpa [looksLast, takes] using (Bool.or_eq_false_iff.1 none).2
      refine (front.mono sub).andThen (d := 0) back (fun m n mem => ?_) later
      exact (matches_forward second _ _ (follows₂.stop_of_mem mem)).length_le
  | alt preferred other ih₁ ih₂ =>
    simp only [isSteady, looksForWords, Bool.and_eq_true] at steady words
    simp only [looksLast, Bool.or_eq_false_iff] at right
    have left : preferred.ways.Embeds s (alt preferred other).looksFirst k :=
      (ih₁ steady.1 words.1 (right.imp_right (Or.imp_left And.left))).mono fun met => by
        simp [looksFirst, met]
    have right : other.ways.Embeds s (alt preferred other).looksFirst k :=
      (ih₂ steady.2 words.2 (right.imp_right (Or.imp_left And.right))).mono fun met => by
        simp [looksFirst, met]
    exact left.orElse right
  | repetition body least most greedy ih =>
    simp only [isSteady, Bool.and_eq_true] at steady
    have progress : most = none → ∀ c d, body.Matches c d → d.ahead.length < c.ahead.length := by
      intro unbounded _ _
      have takes : body.startsByTaking := by simpa [unbounded] using steady.2
      exact length_lt_of_takesSomething (takesSomething_of_startsByTaking takes)
    exact (ih steady.1 words right).between (follows_ways steady.1) (matches_forward body) greedy
      least most progress

/-! ## Word characters at the ends -/

/-- Whether all characters of the set are word characters, as far as the set is simple enough to
tell. -/
def CharSet.isWordy : CharSet → Bool
  | range first last => first == last && Text.isWordChar first
  | bracket false inner => isWordy inner
  | _ => false

theorem CharSet.isWordChar_of_contains {set : CharSet} (wordy : set.isWordy) {x : Char}
    (mem : set.contains .exact x) : Text.isWordChar x := by
  induction set with
  | range first last =>
    simp only [isWordy, Bool.and_eq_true, beq_iff_eq] at wordy
    simp only [contains, Bool.and_eq_true, decide_eq_true_eq] at mem
    obtain rfl := Char.le_antisymm mem.2 (wordy.1 ▸ mem.1)
    exact wordy.1 ▸ wordy.2
  | bracket negated inner ih =>
    cases negated with
    | false => exact ih wordy (by simpa [contains, closure, CaseRule.variantsOf] using mem)
    | true => cases wordy
  | _ => cases wordy

/-- Whether the first character of a match, if there is any, is a word character. -/
def startsInWord : Regex → Bool
  | empty | look _ => true
  | one rule set => rule == .exact && set.isWordy
  | group _ body => startsInWord body
  | seq a b => startsInWord a && (a.takesSomething || startsInWord b)
  | alt a b => startsInWord a && startsInWord b
  | repetition body _ _ _ => startsInWord body

/-- Whether the last character of a match, if there is any, is a word character. -/
def endsInWord : Regex → Bool
  | empty | look _ => true
  | one rule set => rule == .exact && set.isWordy
  | group _ body => endsInWord body
  | seq a b => endsInWord b && (b.takesSomething || endsInWord a)
  | alt a b => endsInWord a && endsInWord b
  | repetition body _ _ _ => endsInWord body

/-- Whether a match begins at a word boundary. -/
def startsAtBoundary : Regex → Bool
  | look condition => condition == .wordBoundary
  | group _ body => startsAtBoundary body
  | seq a _ => startsAtBoundary a
  | _ => false

/-- Whether a match ends at a word boundary. -/
def endsAtBoundary : Regex → Bool
  | look condition => condition == .wordBoundary
  | group _ body => endsAtBoundary body
  | seq _ b => endsAtBoundary b
  | _ => false

/-- Whether nothing outside a match makes a difference to the ways inside it: at each end, either
no condition is met, or the match has a word boundary and a word character inside it. -/
def isSealed (r : Regex) : Bool :=
  r.isSteady && r.looksForWords &&
    (!r.looksFirst || (r.startsAtBoundary && r.startsInWord && r.takesSomething)) &&
    (!r.looksLast || (r.endsAtBoundary && r.endsInWord && r.takesSomething))

variable {c d : Cursor}

theorem aheadIs_of_startsInWord (word : r.startsInWord) (h : r.Matches c d) :
    d = c ∨ c.aheadIs Text.isWordChar := by
  induction r generalizing c d with
  | empty => exact .inl h
  | look condition => exact .inl h.2
  | one rule set =>
    simp only [startsInWord, Bool.and_eq_true, beq_iff_eq] at word
    obtain ⟨x, next, mem⟩ := h
    obtain ⟨rfl, wordy⟩ := word
    refine .inr ?_
    rw [Cursor.aheadIs, Cursor.ahead_of_next? next]
    exact CharSet.isWordChar_of_contains wordy mem
  | group name? body ih => exact ih word h
  | seq a b ih₁ ih₂ =>
    simp only [startsInWord, Bool.and_eq_true, Bool.or_eq_true] at word
    obtain ⟨e, front, back⟩ := h
    rcases ih₁ word.1 front with rfl | ahead
    · rcases word.2 with takes | word₂
      · exact absurd (length_lt_of_takesSomething takes front) (Nat.lt_irrefl _)
      · exact ih₂ word₂ back
    · exact .inr ahead
  | alt a b ih₁ ih₂ =>
    simp only [startsInWord, Bool.and_eq_true] at word
    exact h.elim (ih₁ word.1) (ih₂ word.2)
  | repetition body least most greedy ih =>
    obtain ⟨n, -, -, rounds⟩ := h
    induction n generalizing c with
    | zero => exact .inl rounds
    | succ n rec =>
      obtain ⟨e, first, rest⟩ := rounds
      rcases ih word first with rfl | ahead
      · exact rec rest
      · exact .inr ahead

theorem behindIs_of_endsInWord (word : r.endsInWord) (h : r.Matches c d) :
    d = c ∨ d.behindIs Text.isWordChar := by
  induction r generalizing c d with
  | empty => exact .inl h
  | look condition => exact .inl h.2
  | one rule set =>
    simp only [endsInWord, Bool.and_eq_true, beq_iff_eq] at word
    obtain ⟨x, next, mem⟩ := h
    obtain ⟨rfl, wordy⟩ := word
    refine .inr ?_
    rw [Cursor.behindIs, (Cursor.next?_eq_some_iff.1 next).behind]
    exact CharSet.isWordChar_of_contains wordy mem
  | group name? body ih => exact ih word h
  | seq a b ih₁ ih₂ =>
    simp only [endsInWord, Bool.and_eq_true, Bool.or_eq_true] at word
    obtain ⟨e, front, back⟩ := h
    rcases ih₂ word.1 back with rfl | behind
    · rcases word.2 with takes | word₁
      · exact absurd (length_lt_of_takesSomething takes back) (Nat.lt_irrefl _)
      · exact ih₁ word₁ front
    · exact .inr behind
  | alt a b ih₁ ih₂ =>
    simp only [endsInWord, Bool.and_eq_true] at word
    exact h.elim (ih₁ word.1) (ih₂ word.2)
  | repetition body least most greedy ih =>
    obtain ⟨n, -, -, rounds⟩ := h
    induction n generalizing c with
    | zero => exact .inl rounds
    | succ n rec =>
      obtain ⟨e, first, rest⟩ := rounds
      rcases rec rest with rfl | behind
      · exact ih word first
      · exact .inr behind

theorem holds_of_startsAtBoundary (bounded : r.startsAtBoundary) (h : r.Matches c d) :
    Look.wordBoundary.holds c := by
  induction r generalizing c d with
  | look condition =>
    obtain rfl := eq_of_beq bounded
    exact h.1
  | group name? body ih => exact ih bounded h
  | seq a b ih₁ ih₂ =>
    obtain ⟨e, front, -⟩ := h
    exact ih₁ bounded front
  | _ => cases bounded

theorem holds_of_endsAtBoundary (bounded : r.endsAtBoundary) (h : r.Matches c d) :
    Look.wordBoundary.holds d := by
  induction r generalizing c d with
  | look condition =>
    obtain rfl := eq_of_beq bounded
    exact h.2 ▸ h.1
  | group name? body ih => exact ih bounded h
  | seq a b ih₁ ih₂ =>
    obtain ⟨e, -, back⟩ := h
    exact ih₂ bounded back
  | _ => cases bounded

/-- At an end where a sealed expression meets a condition, nothing is seen outside. -/
theorem startsFree_of_isSealed (isSealed : r.isSealed) (h : r.Matches c d)
    (met : r.looksFirst = true) : (Surroundings.between c d).startsFree := by
  simp only [Regex.isSealed, met, Bool.and_eq_true, Bool.or_eq_true] at isSealed
  obtain ⟨⟨-, isSealed⟩, -⟩ := isSealed
  obtain ⟨⟨bounded, word⟩, takes⟩ := isSealed.resolve_left (by simp)
  have boundary : (c.behindIs Text.isWordChar != c.aheadIs Text.isWordChar) = true :=
    holds_of_startsAtBoundary bounded h
  rcases aheadIs_of_startsInWord word h with rfl | ahead
  · exact absurd (length_lt_of_takesSomething takes h) (Nat.lt_irrefl _)
  · rw [ahead] at boundary
    simpa [Surroundings.startsFree, Surroundings.between, Cursor.behindIs] using boundary

theorem endsFree_of_isSealed (isSealed : r.isSealed) (h : r.Matches c d)
    (met : r.looksLast = true) : (Surroundings.between c d).endsFree := by
  simp only [Regex.isSealed, met, Bool.and_eq_true, Bool.or_eq_true] at isSealed
  obtain ⟨⟨bounded, word⟩, takes⟩ := isSealed.2.resolve_left (by simp)
  have boundary : (d.behindIs Text.isWordChar != d.aheadIs Text.isWordChar) = true :=
    holds_of_endsAtBoundary bounded h
  rcases behindIs_of_endsInWord word h with rfl | behind
  · exact absurd (length_lt_of_takesSomething takes h) (Nat.lt_irrefl _)
  · rw [behind] at boundary
    simpa [Surroundings.endsFree, Surroundings.between, Cursor.aheadIs] using boundary

/-! ## Best matches -/

/-- The match is the first of all ways from `m` on that end where it ends. -/
def Best (r : Regex) (m w : Match) : Prop :=
  (r.ways m).find? (fun n => n.stop = w.stop) = some w

theorem Best.mem {m w : Match} (h : r.Best m w) : w ∈ r.ways m :=
  List.mem_of_find?_eq_some h

theorem best_of_head? {m w : Match} (head : (r.ways m).head? = some w) : r.Best m w := by
  obtain ⟨later, eq⟩ := List.head?_eq_some_iff.1 head
  rw [Best, eq, List.find?_cons_of_pos (by simp)]

theorem Best.matches {m w : Match} (h : r.Best m w) (steady : r.isSteady) :
    r.Matches m.stop w.stop :=
  (follows_ways steady).stop_of_mem h.mem

theorem isSteady_of_isSealed (isSealed : r.isSealed) : r.isSteady := by
  simp only [Regex.isSealed, Bool.and_eq_true] at isSealed
  exact isSealed.1.1.1

/-- The places of a text, in the longer text. -/
theorem within_eq_iff {u : Text} {b : Cursor} (place : c.Through u d) (inside : b.IsPlace u) :
    b.within (.between c d) = d ↔ b.ahead = [] := by
  constructor
  · intro eq
    have ahead : b.ahead ++ d.ahead = d.ahead := congrArg Cursor.ahead eq
    simpa using ahead
  · intro atEnd
    have all : b.behind.reverse = u := by simpa [atEnd] using inside.text
    have behind : b.behind ++ c.behind = d.behind := by
      rw [place.behind, ← all, List.reverse_reverse]
    have offset : c.offset + b.offset = d.offset := by
      rw [place.offset, inside.offset, ← all, Text.byteSize_reverse]
    simp only [Cursor.within, Surroundings.between, atEnd, List.nil_append, behind, offset]

/-- The ways of a sealed expression between two places are the same in the text between them. -/
theorem filter_ways_between (isSealed : r.isSealed) {u : Text} (place : c.Through u d)
    (step : r.Matches c d) :
    (r.ways { stop := c }).filter (fun n => n.stop = d) =
      ((r.ways { stop := .start u }).filter (·.stop.atEnd)).map (·.within (.between c d)) := by
  have steady := isSteady_of_isSealed isSealed
  have words : r.looksForWords := by
    simp only [Regex.isSealed, Bool.and_eq_true] at isSealed
    exact isSealed.1.1.2
  have right : r.looksLast = false ∨ (Surroundings.between c d).endsFree := by
    cases met : r.looksLast with
    | false => exact .inl rfl
    | true => exact .inr (endsFree_of_isSealed isSealed step met)
  have all : (r.ways { stop := c }).filter (·.leaves d.ahead.length) =
      (r.ways { stop := .start u }).map (·.within (.between c d)) := by
    have start : ({ stop := .start u } : Match).within (.between c d) = { stop := c } := by
      have ahead : u ++ d.ahead = c.ahead := place.ahead.symm
      simp [Match.within, Cursor.within, Cursor.start, Surroundings.between, ahead]
    have embeds := embeds_ways (k := 0) steady words (.inr right) { stop := .start u }
      fun met => .inr (startsFree_of_isSealed isSealed step met)
    have every : (r.ways { stop := .start u }).filter (·.leaves 0) =
        r.ways { stop := .start u } := List.filter_eq_self.2 fun n _ => by simp [Match.leaves]
    rw [start, every] at embeds
    exact embeds
  calc (r.ways { stop := c }).filter (fun n => n.stop = d)
      = ((r.ways { stop := c }).filter (·.leaves d.ahead.length)).filter fun n => n.stop = d := by
        rw [List.filter_filter]
        refine List.filter_congr fun n _ => ?_
        by_cases eq : n.stop = d <;> simp [eq, Match.leaves]
    _ = ((r.ways { stop := .start u }).filter (·.stop.atEnd)).map
          (·.within (.between c d)) := by
        rw [all, List.filter_map]
        refine congrArg (List.map _) (List.filter_congr fun n mem => ?_)
        have inside := (Cursor.isPlace_start u).reaches
          (matches_forward r _ _ ((follows_ways steady).stop_of_mem mem))
        rw [Bool.eq_iff_iff]
        simpa [Match.within, Cursor.atEnd] using within_eq_iff place inside

/-! ## Matches of a whole text -/

/-- The expression, between the start and the end of a text. -/
def whole (r : Regex) : Regex :=
  sequence (look .textStart :: (r.items ++ [look .textEnd]))

/-- The ways through expressions that follow each other. -/
def chain (rs : List Regex) : Ways :=
  rs.foldr (fun r W => r.ways.andThen W) fun m => [m]

theorem chain_singleton (r : Regex) : chain [r] = r.ways :=
  Ways.andThen_nothing r.ways

theorem chain_append (rs rs' : List Regex) :
    chain (rs ++ rs') = (chain rs).andThen (chain rs') := by
  induction rs with
  | nil => exact (Ways.nothing_andThen _).symm
  | cons r rs ih =>
    calc r.ways.andThen (chain (rs ++ rs')) = r.ways.andThen ((chain rs).andThen (chain rs')) := by
          rw [ih]
      _ = (chain (r :: rs)).andThen (chain rs') := (Ways.andThen_assoc ..).symm

theorem ways_sequence (rs : List Regex) : (sequence rs).ways = chain rs := by
  induction rs with
  | nil => rfl
  | cons r rs ih =>
    cases rs with
    | nil => exact (Ways.andThen_nothing r.ways).symm
    | cons r' rs => exact congrArg r.ways.andThen ih

theorem chain_items (r : Regex) : chain r.items = r.ways := by
  induction r with
  | empty => rfl
  | seq first second ih₁ ih₂ => rw [items, chain_append, ih₁, ih₂]; rfl
  | _ => exact Ways.andThen_nothing _

theorem isSteady_sequence (rs : List Regex) : (sequence rs).isSteady = rs.all isSteady := by
  induction rs with
  | nil => rfl
  | cons r rs ih =>
    cases rs with
    | nil => simp [sequence]
    | cons r' rs => simp [sequence, isSteady, ih]

theorem all_isSteady_items (r : Regex) : r.items.all isSteady = r.isSteady := by
  induction r with
  | empty => rfl
  | seq first second ih₁ ih₂ => rw [items, List.all_append, ih₁, ih₂]; rfl
  | _ => simp [items]

theorem ways_whole (r : Regex) (u : Text) :
    r.whole.ways { stop := .start u } = (r.ways { stop := .start u }).filter (·.stop.atEnd) := by
  have parts : r.whole.ways =
      (look .textStart).ways.andThen (r.ways.andThen (look .textEnd).ways) := by
    calc r.whole.ways = (look .textStart).ways.andThen (chain (r.items ++ [look .textEnd])) :=
          ways_sequence _
      _ = (look .textStart).ways.andThen (r.ways.andThen (chain [look .textEnd])) := by
          rw [chain_append, chain_items]
      _ = _ := congrArg (fun W => Ways.andThen _ (Ways.andThen _ W)) (Ways.andThen_nothing _)
  have front : (look .textStart).ways { stop := .start u } = [{ stop := .start u }] := rfl
  rw [parts, Ways.andThen, front, List.flatMap_singleton, Ways.andThen]
  induction r.ways { stop := .start u } with
  | nil => rfl
  | cons n ns ih =>
    rw [List.flatMap_cons, ih, ways, List.filter_cons]
    cases atEnd : n.stop.atEnd <;> simp [Look.holds, atEnd]

theorem isSteady_whole (steady : r.isSteady) : r.whole.isSteady := by
  rw [whole, isSteady_sequence, List.all_cons, List.all_append, all_isSteady_items, steady]
  rfl

/-- The best match of a sealed expression between two places is what is found for the text between
them as a whole. -/
theorem find?_whole (isSealed : r.isSealed) {u : Text} {w : Match} (place : c.Through u w.stop)
    (best : r.Best { stop := c } w) :
    ∃ v : Match, r.whole.searcher.find? u = some v ∧ w = v.within (.between c w.stop) := by
  have step := best.matches (isSteady_of_isSealed isSealed)
  rw [Best, ← List.head?_filter, filter_ways_between isSealed place step, List.head?_map,
    Option.map_eq_some_iff] at best
  obtain ⟨v, first, eq⟩ := best
  refine ⟨v, find?_eq_some_of_head? (isSteady_whole (isSteady_of_isSealed isSealed)) ?_, eq.symm⟩
  rw [ways_whole, first]

end Regex

end RulesText
