import RulesText.Proofs.Regex.Alternatives

/-!
# What composed expressions match

Sequences are kept as flat lists of items, and what all branches of a choice begin with stands in
front of it. Neither makes a difference to what is matched, to a property that is one of all parts,
or to which groups there are.

## Main definitions

* `Regex.oneOf`, `Regex.branchOf`: how the branches of a group are put together.
* `Regex.Distributes`: a property of all parts of an expression.
* `Regex.groups`: all named groups with their expressions.

## Main statements

* `Regex.matches_firstOf`: a choice matches what one of its branches matches.
-/

namespace RulesText.Regex

variable {r s : Regex} {rs rs' : List Regex} {c d : Cursor}

/-! ## Sequences -/

theorem matchesAll_append :
    MatchesAll (rs ++ rs') c d ↔ ∃ e, MatchesAll rs c e ∧ MatchesAll rs' e d := by
  induction rs generalizing c with
  | nil => exact ⟨fun h => ⟨c, rfl, h⟩, fun ⟨_, same, h⟩ => same ▸ h⟩
  | cons r rs ih =>
    simp only [List.cons_append, MatchesAll, ih]
    exact ⟨fun ⟨b, first, e, rest, last⟩ => ⟨e, ⟨b, first, rest⟩, last⟩,
      fun ⟨e, ⟨b, first, rest⟩, last⟩ => ⟨b, first, e, rest, last⟩⟩

theorem matches_sequence_iff : (sequence rs).Matches c d ↔ MatchesAll rs c d := by
  refine ⟨fun h => ?_, matches_sequence⟩
  induction rs generalizing c with
  | nil => exact h
  | cons r rs ih =>
    cases rs with
    | nil => exact ⟨d, h, rfl⟩
    | cons r' rs =>
      obtain ⟨e, first, rest⟩ := h
      exact ⟨e, first, ih rest⟩

theorem items_sequence (rs : List Regex) : (sequence rs).items = rs.flatMap items := by
  induction rs with
  | nil => rfl
  | cons r rs ih =>
    cases rs with
    | nil => simp [sequence]
    | cons r' rs =>
      change r.items ++ (sequence (r' :: rs)).items = _
      rw [ih]
      rfl

theorem matchesAll_items_iff : MatchesAll r.items c d ↔ r.Matches c d := by
  refine ⟨fun h => ?_, matchesAll_items⟩
  induction r generalizing c d with
  | empty => exact h
  | seq first second ih₁ ih₂ =>
    obtain ⟨e, front, back⟩ := matchesAll_append.1 h
    exact ⟨e, ih₁ front, ih₂ back⟩
  | _ =>
    obtain ⟨e, own, rfl⟩ := h
    exact own

/-- A sequence of flattened expressions matches what they match one after the other. -/
theorem matchesAll_flatMap_items : MatchesAll (rs.flatMap items) c d ↔ MatchesAll rs c d := by
  induction rs generalizing c with
  | nil => rfl
  | cons r rs ih =>
    rw [List.flatMap_cons, matchesAll_append]
    simp only [matchesAll_items_iff, ih, MatchesAll]

/-! ## Choices -/

theorem matches_branches : (branches r rs).Matches c d ↔ ∃ s ∈ r :: rs, s.Matches c d := by
  induction rs generalizing r with
  | nil => simp [branches]
  | cons s rs ih =>
    rw [branches, Matches, ih, List.exists_mem_cons_iff (l := s :: rs)]

theorem commonStart_isPrefix (as bs : List Regex) :
    commonStart as bs <+: as ∧ commonStart as bs <+: bs := by
  induction as generalizing bs with
  | nil => simp [commonStart]
  | cons a as ih =>
    cases bs with
    | nil => simp [commonStart]
    | cons b bs =>
      rw [commonStart]
      split
      · rename_i same
        obtain rfl : a = b := by simp_all
        obtain ⟨left, right⟩ := ih bs
        exact ⟨List.prefix_cons_inj a |>.2 left, List.prefix_cons_inj a |>.2 right⟩
      · exact ⟨List.nil_prefix, List.nil_prefix⟩

theorem foldl_commonStart_isPrefix (as : List Regex) (bss : List (List Regex)) :
    bss.foldl commonStart as <+: as ∧ ∀ bs ∈ bss, bss.foldl commonStart as <+: bs := by
  induction bss generalizing as with
  | nil => simp
  | cons bs bss ih =>
    obtain ⟨left, all⟩ := ih (commonStart as bs)
    obtain ⟨front, back⟩ := commonStart_isPrefix as bs
    exact ⟨left.trans front, List.forall_mem_cons.2 ⟨left.trans back, all⟩⟩

/-- A choice is its branches side by side, or what they have in common in front of the rest of
each of them. -/
theorem firstOf_cases (r : Regex) (rs : List Regex) :
    firstOf r rs = branches r rs ∨ ∃ start, ∃ rest : Regex → Regex,
      firstOf r rs = sequence (start ++ [branches (rest r) (rs.map rest)]) ∧
      ∀ s ∈ r :: rs, ∃ later, s.items = start ++ later ∧ rest s = sequence later := by
  unfold firstOf
  dsimp only
  split
  · exact .inl rfl
  · refine .inr ⟨_, fun s => sequence (s.items.drop _), rfl, fun s mem => ?_⟩
    obtain ⟨own, others⟩ := foldl_commonStart_isPrefix r.items (rs.map items)
    have start : (rs.map items).foldl commonStart r.items <+: s.items := by
      rcases List.mem_cons.1 mem with rfl | mem
      · exact own
      · exact others _ (List.mem_map_of_mem mem)
    exact ⟨_, (List.prefix_iff_eq_append.1 start).symm, rfl⟩

/-- A choice matches what one of its branches matches. -/
theorem matches_firstOf : (firstOf r rs).Matches c d ↔ ∃ s ∈ r :: rs, s.Matches c d := by
  rcases firstOf_cases r rs with eq | ⟨start, rest, eq, parts⟩
  · rw [eq, matches_branches]
  · have inner : ∀ e f, (branches (rest r) (rs.map rest)).Matches e f ↔
        ∃ s ∈ r :: rs, (rest s).Matches e f := fun e f => by simp [matches_branches]
    rw [eq, matches_sequence_iff, matchesAll_append]
    simp only [MatchesAll, inner]
    have own : ∀ s ∈ r :: rs, ∀ e, (rest s).Matches e d ∧ MatchesAll start c e →
        s.Matches c d := by
      rintro s mem e ⟨last, first⟩
      obtain ⟨later, items, same⟩ := parts s mem
      rw [same, matches_sequence_iff] at last
      exact matchesAll_items_iff.1 (items ▸ first.append last)
    constructor
    · rintro ⟨e, first, _, ⟨s, mem, last⟩, rfl⟩
      exact ⟨s, mem, own s mem e ⟨last, first⟩⟩
    · rintro ⟨s, mem, step⟩
      obtain ⟨later, items, same⟩ := parts s mem
      have step := matchesAll_items step
      rw [items, matchesAll_append] at step
      obtain ⟨e, first, last⟩ := step
      exact ⟨e, first, d, ⟨s, mem, by rwa [same, matches_sequence_iff]⟩, rfl⟩

/-! ## Branches of a group -/

/-- One of several; nothing if there are none. -/
def oneOf : List Regex → Regex
  | [] => empty
  | r :: rs => firstOf r rs

/-- A branch that consists of the expressions. -/
def branchOf (rs : List Regex) : Regex :=
  sequence (rs.flatMap items)

@[simp] theorem oneOf_singleton (r : Regex) : oneOf [r] = r := by
  simp [oneOf, firstOf, branches]

theorem matches_oneOf (nonempty : rs ≠ []) :
    (oneOf rs).Matches c d ↔ ∃ r ∈ rs, r.Matches c d := by
  cases rs with
  | nil => exact absurd rfl nonempty
  | cons r rs => exact matches_firstOf

theorem matches_branchOf : (branchOf rs).Matches c d ↔ MatchesAll rs c d := by
  rw [branchOf, matches_sequence_iff, matchesAll_flatMap_items]

/-- What may be left out stays a repetition, even if it takes nothing. -/
theorem repeated_one (r : Regex) (greedy : Bool) :
    repeated r 0 (some 1) greedy = .repetition r 0 (some 1) greedy := by
  cases nothing : r.takesNothing <;> simp [repeated, nothing]

/-! ## Properties of all parts -/

/-- A property that sequences and choices have if all of their parts have it. -/
structure Distributes (p : Regex → Bool) : Prop where
  empty : p .empty = true
  seq : ∀ a b, p (.seq a b) = (p a && p b)
  alt : ∀ a b, p (.alt a b) = (p a && p b)

namespace Distributes

variable {p : Regex → Bool} (h : Distributes p)

include h

theorem sequence (rs : List Regex) : p (sequence rs) = rs.all p := by
  induction rs with
  | nil => exact h.empty
  | cons r rs ih =>
    cases rs with
    | nil => simp [Regex.sequence]
    | cons r' rs =>
      change p (.seq r (Regex.sequence (r' :: rs))) = _
      rw [h.seq, ih]
      rfl

theorem items (r : Regex) : r.items.all p = p r := by
  induction r with
  | empty => exact h.empty.symm
  | seq first second ih₁ ih₂ => rw [Regex.items, List.all_append, ih₁, ih₂, h.seq]
  | _ => simp [Regex.items]

theorem branches (r : Regex) (rs : List Regex) : p (branches r rs) = (r :: rs).all p := by
  induction rs generalizing r with
  | nil => simp [Regex.branches]
  | cons s rs ih =>
    rw [Regex.branches, h.alt, ih]
    rfl

theorem firstOf (r : Regex) (rs : List Regex) : p (firstOf r rs) = (r :: rs).all p := by
  rcases firstOf_cases r rs with eq | ⟨start, rest, eq, parts⟩
  · rw [eq, h.branches]
  · have whole : ∀ s ∈ r :: rs, p s = (start.all p && p (rest s)) := by
      intro s mem
      obtain ⟨later, items, same⟩ := parts s mem
      rw [← h.items, items, List.all_append, same, h.sequence]
    have inner : p (Regex.branches (rest r) (rs.map rest)) =
        (r :: rs).all fun s => p (rest s) := by
      rw [h.branches]
      simp [Function.comp_def]
    rw [eq, h.sequence, List.all_append, List.all_cons, List.all_nil, Bool.and_true, inner,
      Bool.eq_iff_iff]
    simp only [Bool.and_eq_true, List.all_eq_true]
    constructor
    · rintro ⟨front, back⟩ s mem
      rw [whole s mem, List.all_eq_true.2 front, back s mem]
      rfl
    · intro every
      have both : ∀ s ∈ r :: rs, start.all p ∧ p (rest s) := by
        intro s mem
        have := every s mem
        rwa [whole s mem, Bool.and_eq_true] at this
      exact ⟨List.all_eq_true.1 (both r List.mem_cons_self).1, fun s mem => (both s mem).2⟩

theorem oneOf (rs : List Regex) : p (oneOf rs) = rs.all p := by
  cases rs with
  | nil => exact h.empty
  | cons r rs => exact h.firstOf r rs

theorem branchOf (rs : List Regex) : p (branchOf rs) = rs.all p := by
  rw [Regex.branchOf, h.sequence, List.all_flatMap]
  exact congrArg rs.all (funext h.items)

end Distributes

theorem distributes_takesNothing : Distributes takesNothing :=
  ⟨rfl, fun _ _ => rfl, fun _ _ => rfl⟩

theorem distributes_isSteady : Distributes isSteady :=
  ⟨rfl, fun _ _ => rfl, fun _ _ => rfl⟩

theorem distributes_not_looksInLoop : Distributes (!·.looksInLoop) :=
  ⟨rfl, fun _ _ => Bool.not_or .., fun _ _ => Bool.not_or ..⟩

/-! ## Groups -/

/-- All named groups with their expressions, those inside others too. -/
def groups : Regex → List (Text × Regex)
  | group name? body => (name?.map (·, body)).toList ++ groups body
  | seq a b | alt a b => groups a ++ groups b
  | repetition body _ _ _ => groups body
  | _ => []

variable {g : Text × Regex}

theorem mem_groups_sequence : g ∈ (sequence rs).groups ↔ ∃ r ∈ rs, g ∈ r.groups := by
  induction rs with
  | nil => simp [sequence, groups]
  | cons r rs ih =>
    cases rs with
    | nil => simp [sequence]
    | cons r' rs =>
      change g ∈ r.groups ++ (sequence (r' :: rs)).groups ↔ _
      rw [List.mem_append, ih, List.exists_mem_cons_iff (l := r' :: rs)]

theorem mem_groups_items : (∃ s ∈ r.items, g ∈ s.groups) ↔ g ∈ r.groups := by
  induction r with
  | empty => simp [items, groups]
  | seq first second ih₁ ih₂ =>
    rw [groups, List.mem_append, ← ih₁, ← ih₂, items]
    simp only [List.mem_append, or_and_right, exists_or]
  | _ => simp [items]

theorem mem_groups_branches : g ∈ (branches r rs).groups ↔ ∃ s ∈ r :: rs, g ∈ s.groups := by
  induction rs generalizing r with
  | nil => simp [branches]
  | cons s rs ih =>
    rw [branches, groups, List.mem_append, ih, List.exists_mem_cons_iff (l := s :: rs)]

theorem mem_groups_firstOf (h : g ∈ (firstOf r rs).groups) : ∃ s ∈ r :: rs, g ∈ s.groups := by
  rcases firstOf_cases r rs with eq | ⟨start, rest, eq, parts⟩
  · exact mem_groups_branches.1 (eq ▸ h)
  · rw [eq, mem_groups_sequence] at h
    obtain ⟨part, mem, inside⟩ := h
    rcases List.mem_append.1 mem with mem | mem
    · obtain ⟨later, items, -⟩ := parts r List.mem_cons_self
      exact ⟨r, List.mem_cons_self, mem_groups_items.1
        ⟨part, items ▸ List.mem_append_left _ mem, inside⟩⟩
    · obtain rfl := List.mem_singleton.1 mem
      obtain ⟨s, mem, inside⟩ : ∃ s ∈ r :: rs, g ∈ (rest s).groups := by
        simpa [mem_groups_branches] using inside
      obtain ⟨later, items, same⟩ := parts s mem
      rw [same, mem_groups_sequence] at inside
      obtain ⟨item, last, inside⟩ := inside
      exact ⟨s, mem, mem_groups_items.1 ⟨item, items ▸ List.mem_append_right _ last, inside⟩⟩

theorem mem_groups_repeated {least : Nat} {most : Option Nat} {greedy : Bool}
    (h : g ∈ (repeated r least most greedy).groups) : g ∈ r.groups := by
  unfold repeated at h
  dsimp only at h
  split at h <;> split at h
  all_goals first | cases h | (split at h <;> exact h)

end RulesText.Regex
