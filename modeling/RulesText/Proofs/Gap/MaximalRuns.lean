import Mathlib.Data.List.Forall2
import RulesText.Gap.Basic

/-!
# Gaps are maximal runs

The gaps of a line are its maximal runs of unmatched tokens that are long enough, one gap for each
of them and in their order. A run that is too short is left out, and neither moves the gaps behind
it nor joins those on its two sides.

## Main definitions

* `TokenRun`: tokens that stand together, with those before them and those behind.
* `TokenRun.IsMaximal`: a run of unmatched tokens that is no part of a longer one.
* `Gap.IsOf`: a gap shows a run and what stands on its two sides.
* `Gap.ShowsRuns`: gaps show all maximal runs that are long enough and begin behind given tokens.

## Main statements

* `Gap.find_maximalRuns`: which gaps are found, for every least number of tokens.
-/

namespace RulesText

/-- Tokens that stand together in a list, with those before them and those behind. -/
structure TokenRun where
  before : List Token
  inside : List Token
  behind : List Token

namespace TokenRun

/-- The run is one of unmatched tokens in the list, and the tokens on its two sides are none. -/
structure IsMaximal (tokens : List Token) (r : TokenRun) : Prop where
  parts : r.before ++ (r.inside ++ r.behind) = tokens
  nonempty : r.inside ≠ []
  unmatched : ∀ t ∈ r.inside, t.label = .unmatched
  matched_before : ∀ t ∈ r.before.getLast?, t.label ≠ .unmatched
  matched_behind : ∀ t ∈ r.behind.head?, t.label ≠ .unmatched

/-- The second run begins where the first one has ended, or later. -/
def Precedes (r s : TokenRun) : Prop :=
  r.before.length + r.inside.length ≤ s.before.length

end TokenRun

/-- The gap reaches from the start of the first token of the run to the end of the last one, and
shows the kinds of the tokens on its two sides. -/
structure Gap.IsOf (line : Text) (r : TokenRun) (g : Gap) : Prop where
  start : r.inside.head?.map (·.span.start) = some g.span.start
  stop : r.inside.getLast?.map (·.span.stop) = some g.span.stop
  text : g.text = Text.slice line g.span
  tokens : g.tokens = r.inside.length
  kind_before : ∀ t ∈ r.before.getLast?, ∃ kind, t.label = .kind kind ∧ g.before = .kind kind
  lineStart_iff : g.before = .lineStart ↔ r.before = []
  kind_behind : ∀ t ∈ r.behind.head?, ∃ kind, t.label = .kind kind ∧ g.after = .kind kind
  lineEnd_iff : g.after = .lineEnd ↔ r.behind = []

namespace TokenRun

variable {tokens front own after : List Token} {t : Token} {r s : TokenRun}

/-! ## Where maximal runs begin -/

/-- Unmatched tokens up to the first one that is not. -/
theorem eq_of_append_eq {inside behind : List Token} (parts : inside ++ behind = own ++ after)
    (unmatched : ∀ t ∈ inside, t.label = .unmatched)
    (matched : ∀ t ∈ behind.head?, t.label ≠ .unmatched)
    (unmatched' : ∀ t ∈ own, t.label = .unmatched)
    (matched' : ∀ t ∈ after.head?, t.label ≠ .unmatched) : inside = own ∧ behind = after := by
  have taken {own after : List Token} (unmatched : ∀ t ∈ own, t.label = .unmatched)
      (matched : ∀ t ∈ after.head?, t.label ≠ .unmatched) :
      (own ++ after).takeWhile Gap.isUnmatched = own := by
    rw [List.takeWhile_append_of_pos fun t mem => by simp [Gap.isUnmatched, unmatched t mem]]
    cases after with
    | nil => simp
    | cons t after => simp [Gap.isUnmatched, matched t rfl]
  have same : inside = own := by
    rw [← taken unmatched matched, parts, taken unmatched' matched']
  exact ⟨same, List.append_cancel_left (same ▸ parts)⟩

/-- No maximal run begins with a matched token. -/
theorem IsMaximal.lt_of_matched (h : r.IsMaximal (front ++ t :: after))
    (matched : t.label ≠ .unmatched) (le : front.length ≤ r.before.length) :
    (front ++ [t]).length ≤ r.before.length := by
  rw [List.length_append, List.length_singleton]
  refine Nat.lt_of_le_of_ne le fun same => ?_
  obtain ⟨-, rest⟩ := List.append_inj h.parts same.symm
  obtain ⟨first, others, eq⟩ := List.exists_cons_of_ne_nil h.nonempty
  rw [eq, List.cons_append] at rest
  obtain ⟨rfl, -⟩ := List.cons.inj rest
  exact matched (h.unmatched first (eq ▸ List.mem_cons_self))

/-- A maximal run that begins with another one or behind that is the other one, or it begins
after the other one has ended. -/
theorem IsMaximal.eq_or_precedes (h : r.IsMaximal tokens) (g : s.IsMaximal tokens)
    (le : r.before.length ≤ s.before.length) : s = r ∨ r.Precedes s := by
  obtain ⟨between, before⟩ := List.prefix_of_prefix_length_le ⟨_, h.parts⟩ ⟨_, g.parts⟩ le
  have parts := g.parts.trans h.parts.symm
  rw [← before, List.append_assoc, List.append_cancel_left_eq] at parts
  rcases List.append_eq_append_iff.1 parts with ⟨rest, inside, same⟩ | ⟨rest, eq, -⟩
  · left
    rcases List.eq_nil_or_concat' between with rfl | ⟨init, last, rfl⟩
    · rw [List.nil_append] at parts
      obtain ⟨inside, behind⟩ :=
        eq_of_append_eq parts g.unmatched g.matched_behind h.unmatched h.matched_behind
      cases r
      cases s
      simp_all
    · -- the token before the second run would be one of the first
      have ends : last ∈ s.before.getLast? := by simp [← before]
      exact absurd (h.unmatched last (by simp [inside])) (g.matched_before last ends)
  · right
    rw [Precedes, ← before, eq, List.length_append, List.length_append]
    omega

/-- The maximal runs that do not begin before one of them are that one and those behind it. -/
theorem IsMaximal.from_iff (h : r.IsMaximal tokens) :
    s.IsMaximal tokens ∧ r.before.length ≤ s.before.length ↔
      s = r ∨ s.IsMaximal tokens ∧ r.Precedes s := by
  constructor
  · rintro ⟨maximal, le⟩
    exact (h.eq_or_precedes maximal le).imp id (And.intro maximal)
  · rintro (rfl | ⟨maximal, precedes⟩)
    · exact ⟨h, Nat.le_refl _⟩
    · exact ⟨maximal, Nat.le_of_add_right_le precedes⟩

/-- Of the runs that are long enough, those that do not begin before one of the maximal ones are
that one, if it is long enough, and those behind it. -/
theorem IsMaximal.enough_from_iff {runs : List TokenRun} {least : Nat} (h : r.IsMaximal tokens)
    (behind : ∀ s, s ∈ runs ↔ s.IsMaximal tokens ∧ r.Precedes s ∧ least ≤ s.inside.length) :
    s.IsMaximal tokens ∧ r.before.length ≤ s.before.length ∧ least ≤ s.inside.length ↔
      s = r ∧ least ≤ r.inside.length ∨ s ∈ runs := by
  rw [behind, ← and_assoc, ← and_assoc, h.from_iff, or_and_right]
  exact or_congr_left (and_congr_right fun same => by rw [same])

/-- No maximal run begins behind the last token. -/
theorem IsMaximal.lt_length (h : r.IsMaximal tokens) :
    r.before.length < tokens.length := by
  have := List.length_pos_of_ne_nil h.nonempty
  rw [← h.parts, List.length_append, List.length_append]
  omega

end TokenRun

namespace Gap

variable {line : Text} {least : Nat} {before : Neighbour} {front others after rest : List Token}
  {t : Token} {gaps : List Gap}

/-- What a gap that begins behind these tokens shows before itself. -/
structure IsBefore (front : List Token) (before : Neighbour) : Prop where
  kind : ∀ t ∈ front.getLast?, ∃ kind, t.label = .kind kind ∧ before = .kind kind
  lineStart_iff : before = .lineStart ↔ front = []

theorem isBefore_of_kind {kind : Kind} (label : t.label = .kind kind) :
    IsBefore (front ++ [t]) (.kind kind) where
  kind := by simp [label]
  lineStart_iff := by simp

/-- The unmatched tokens at the front of the rest of a line are a maximal run if what is before
them is none of them. -/
theorem IsBefore.isMaximal (shown : IsBefore front before) (rest : List Token)
    (unmatched : t.label = .unmatched) :
    TokenRun.IsMaximal (front ++ t :: rest)
      ⟨front, t :: rest.takeWhile isUnmatched, rest.dropWhile isUnmatched⟩ where
  parts := by simp
  nonempty := List.cons_ne_nil _ _
  unmatched := by
    rintro u mem
    rcases List.mem_cons.1 mem with rfl | mem
    · exact unmatched
    · simpa [isUnmatched] using List.all_eq_true.1 List.all_takeWhile u mem
  matched_before := by
    intro u last label
    obtain ⟨kind, eq, -⟩ := shown.kind u last
    exact absurd (eq.symm.trans label) (by simp)
  matched_behind := by
    intro u head
    have := List.head?_dropWhile_not isUnmatched rest
    rw [Option.mem_def.1 head] at this
    simpa [isUnmatched] using this

/-- The gap of a maximal run shows it. -/
theorem IsBefore.isOf_ofRun (shown : IsBefore front before)
    (matched : ∀ t ∈ after.head?, t.label ≠ .unmatched) :
    IsOf line ⟨front, t :: others, after⟩ (ofRun line before t others after) where
  start := rfl
  stop := by simp [ofRun, List.getLast?_eq_some_getLast]
  text := rfl
  tokens := rfl
  kind_before := shown.kind
  lineStart_iff := shown.lineStart_iff
  kind_behind := by
    intro u head
    cases label : u.label with
    | unmatched => exact absurd label (matched u head)
    | kind kind => exact ⟨kind, rfl, by simp [ofRun, Option.mem_def.1 head, label, Label.kind?]⟩
  lineEnd_iff := by
    cases after with
    | nil => simp [ofRun]
    | cons u after =>
      cases label : u.label with
      | unmatched => exact absurd label (matched u rfl)
      | kind kind => simp [ofRun, label, Label.kind?]

/-- The gaps show, one by one and in their order, the maximal runs that begin behind the front and
are long enough. -/
def ShowsRuns (line : Text) (least : Nat) (front tokens : List Token) (gaps : List Gap) : Prop :=
  ∃ runs, List.Forall₂ (IsOf line) runs gaps ∧ runs.Pairwise TokenRun.Precedes ∧
    ∀ r, r ∈ runs ↔ r.IsMaximal (front ++ tokens) ∧ front.length ≤ r.before.length ∧
      least ≤ r.inside.length

theorem showsRuns_nil (line : Text) (least : Nat) (front : List Token) :
    ShowsRuns line least front [] [] := by
  refine ⟨[], .nil, .nil, fun r => ⟨fun mem => absurd mem List.not_mem_nil, ?_⟩⟩
  rintro ⟨maximal, le, -⟩
  have := maximal.lt_length
  simp only [List.append_nil] at this
  omega

theorem ShowsRuns.matched (h : ShowsRuns line least (front ++ [t]) rest gaps)
    (label : t.label ≠ .unmatched) : ShowsRuns line least front (t :: rest) gaps := by
  obtain ⟨runs, shows, ordered, all⟩ := h
  refine ⟨runs, shows, ordered, fun r => ?_⟩
  rw [all, List.append_assoc, List.singleton_append]
  refine and_congr_right fun maximal => and_congr_left fun _ => ⟨fun le => ?_, fun le => ?_⟩
  · exact Nat.le_trans (by simp) le
  · exact maximal.lt_of_matched label le

theorem ShowsRuns.unmatched {g : Gap} (h : ShowsRuns line least (front ++ t :: others) after gaps)
    (first : TokenRun.IsMaximal (front ++ t :: rest) ⟨front, t :: others, after⟩)
    (shown : IsOf line ⟨front, t :: others, after⟩ g) :
    ShowsRuns line least front (t :: rest)
      (if least ≤ others.length + 1 then g :: gaps else gaps) := by
  obtain ⟨runs, shows, ordered, all⟩ := h
  have text : front ++ t :: others ++ after = front ++ t :: rest :=
    (List.append_assoc ..).trans first.parts
  simp only [text, List.length_append] at all
  split
  case isTrue long =>
    refine ⟨⟨front, t :: others, after⟩ :: runs, .cons shown shows, ?_, fun r => ?_⟩
    · exact .cons (fun r mem => ((all r).1 mem).2.1) ordered
    · rw [List.mem_cons, first.enough_from_iff all]
      exact or_congr_left (and_iff_left long).symm
  case isFalse short =>
    refine ⟨runs, shows, ordered, fun r => ?_⟩
    rw [first.enough_from_iff all, or_iff_right fun enough => short enough.2]

/-- The gaps among the tokens behind others are those of the maximal runs there. -/
theorem showsRuns_ofTokens (line : Text) (least : Nat) (before : Neighbour)
    (tokens front : List Token)
    (shown : ∀ t ∈ tokens.head?, t.label = .unmatched → IsBefore front before) :
    ShowsRuns line least front tokens (ofTokens line least before tokens) := by
  -- the front grows by what each step reads, and the runs behind it are those still to come
  fun_induction ofTokens line least before tokens generalizing front with
  | case1 before => exact showsRuns_nil line least front
  | case2 before t rest kind label ih =>
    exact (ih (front ++ [t]) fun _ _ _ => isBefore_of_kind label).matched (by simp [label])
  | case3 before t rest label others after later long ih =>
    have first := (shown t rfl label).isMaximal rest label
    have behind := ih (front ++ t :: others) fun u head unmatched =>
      absurd unmatched (first.matched_behind u head)
    have step := behind.unmatched first ((shown t rfl label).isOf_ofRun first.matched_behind)
    rwa [if_pos long] at step
  | case4 before t rest label others after later short ih =>
    have first := (shown t rfl label).isMaximal rest label
    have behind := ih (front ++ t :: others) fun u head unmatched =>
      absurd unmatched (first.matched_behind u head)
    have step := behind.unmatched first ((shown t rfl label).isOf_ofRun first.matched_behind)
    rwa [if_neg short] at step

/-- The gaps of a line are its maximal runs of unmatched tokens that are long enough, in their
order. The least length is 1 or 2, and every other one is refused. -/
theorem find_maximalRuns (line : Text) (tokens : List Token) (least : Nat) :
    (least = 1 ∨ least = 2 → ∃ gaps runs, find line tokens least = .ok gaps ∧
      List.Forall₂ (IsOf line) runs gaps ∧ runs.Pairwise TokenRun.Precedes ∧
      ∀ r, r ∈ runs ↔ r.IsMaximal tokens ∧ least ≤ r.inside.length) ∧
    (¬(least = 1 ∨ least = 2) → find line tokens least = .error (.invalidRunLength least)) := by
  constructor
  · intro accepted
    obtain ⟨runs, shows, ordered, all⟩ :=
      showsRuns_ofTokens line least .lineStart tokens [] fun _ _ _ => ⟨by simp, by simp⟩
    refine ⟨_, runs, ?_, shows, ordered, fun r => ?_⟩
    · rw [find, checkRunLength, if_pos accepted]
      rfl
    · rw [all]
      simp
  · intro refused
    rw [find, checkRunLength, if_neg refused]
    rfl

end Gap

end RulesText
