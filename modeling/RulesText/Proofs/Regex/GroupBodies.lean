import RulesText.Proofs.Regex.GroupSpans
import RulesText.Proofs.Regex.Reading

/-!
# The expressions of named groups

What a search captures under a name is matched by the expression of a group of that name. A
pattern uses each name once. So if a piece of its text is read as a named group, then every group
of that name has the expression of that piece, and matches of nothing else are captured under it.

## Main definitions

* `Regex.AddsFrom`: captures of given groups.
* `Regex.Reader.Opens`: the names of the groups that are still open.

## Main statements

* `Regex.Searcher.exists_matched`: what is captured has been matched.
* `Regex.snd_eq_of_mem_groups`: all groups of a name have one expression.
-/

namespace RulesText

namespace Regex

/-! ## What is captured -/

/-- The groups of `n` are those of `m` and others, each of which has been matched by the expression
of one of the given groups. -/
structure AddsFrom (gs : List (Text × Regex)) (m n : Match) : Prop where
  reaches : m.stop.Reaches n.stop
  group : ∀ p ∈ n.groups, p ∈ m.groups ∨ ∃ body a b, (p.1, body) ∈ gs ∧ m.stop.Reaches a ∧
    body.Matches a b ∧ p.2 = a.spanTo b

namespace AddsFrom

variable {gs gs' : List (Text × Regex)} {e m n : Match}

theorem of_groups_eq (reaches : m.stop.Reaches n.stop) (same : n.groups = m.groups) :
    AddsFrom gs m n :=
  ⟨reaches, fun _ mem => .inl (same ▸ mem)⟩

theorem mono (h : AddsFrom gs m n) (sub : gs ⊆ gs') : AddsFrom gs' m n := by
  refine ⟨h.reaches, fun p mem => (h.group p mem).imp_right ?_⟩
  rintro ⟨body, a, b, known, rest⟩
  exact ⟨body, a, b, sub known, rest⟩

theorem trans (h : AddsFrom gs m e) (g : AddsFrom gs e n) : AddsFrom gs m n := by
  refine ⟨h.reaches.trans g.reaches, fun p mem => ?_⟩
  rcases g.group p mem with mem | ⟨body, a, b, known, reach, rest⟩
  · exact h.group p mem
  · exact .inr ⟨body, a, b, known, h.reaches.trans reach, rest⟩

theorem rounds {W : Ends Match} (step : ∀ m n, W m n → AddsFrom gs m n) {k : Nat}
    (h : W.Rounds k m n) : AddsFrom gs m n := by
  induction k generalizing m with
  | zero =>
    obtain rfl := h
    exact .of_groups_eq (.refl _) rfl
  | succ k ih =>
    obtain ⟨e, first, rest⟩ := h
    exact (step m e first).trans (ih rest)

end AddsFrom

variable {r body : Regex} {m n : Match} {t name : Text} {s : Span}

theorem addsFrom_of_carries (h : r.Carries m n) : AddsFrom r.groups m n := by
  induction r generalizing m n with
  | empty =>
    obtain rfl := h
    exact .of_groups_eq (.refl _) rfl
  | one rule set =>
    obtain ⟨⟨x, next, -⟩, same⟩ := h
    exact .of_groups_eq (Cursor.reaches_of_next? next) same
  | look condition =>
    obtain ⟨-, stop, same⟩ := h
    exact .of_groups_eq (stop ▸ .refl _) same
  | group name? body ih =>
    cases name? with
    | none => exact ih h
    | some name =>
      obtain ⟨e, inside, rfl⟩ := h
      have inner := (ih inside).mono (List.subset_cons_self (name, body) _)
      refine ⟨inner.reaches, List.forall_mem_cons.2 ⟨.inr ?_, inner.group⟩⟩
      exact ⟨body, m.stop, e.stop, List.mem_cons_self, .refl _, matches_of_carries inside, rfl⟩
  | seq first second ih₁ ih₂ =>
    obtain ⟨e, front, back⟩ := h
    exact ((ih₁ front).mono (List.subset_append_left ..)).trans
      ((ih₂ back).mono (List.subset_append_right ..))
  | alt preferred other ih₁ ih₂ =>
    rcases h with h | h
    · exact (ih₁ h).mono (List.subset_append_left ..)
    · exact (ih₂ h).mono (List.subset_append_right ..)
  | repetition body least most greedy ih =>
    obtain ⟨k, -, -, rounds⟩ := h
    exact .rounds (fun _ _ => ih) rounds

/-- What a search in a text has captured was matched by the expression of a group. -/
theorem Searcher.exists_matched (found : r.searcher.find? t = some m)
    (captured : m.group? name = some s) : ∃ body a b, (name, body) ∈ r.groups ∧
      a.Through (Text.slice t s) b ∧ body.Matches a b := by
  have slice := isSome_slice?_of_find? found captured
  rw [find?, findFrom?] at found
  obtain ⟨⟨c, n⟩, first, rfl⟩ := Option.map_eq_some_iff.1 found
  obtain ⟨mem, carries⟩ := (sound_searcher r .atOnce).firstMatch? first
  have place := (Cursor.isPlace_start t).reaches (Cursor.mem_places_iff.1 mem)
  rcases (addsFrom_of_carries carries).group _ (mem_of_group? captured) with
    old | ⟨body, a, b, known, reach, step, rfl⟩
  · simp at old
  · obtain ⟨u, through⟩ := matches_forward body a b step
    rw [Text.slice_eq ((place.reaches reach).slice?_spanTo through)]
    exact ⟨body, a, b, known, through, step⟩

/-! ## Groups that have been read -/

variable {g : Text × Regex} {l l' : Level}

namespace Level

/-- The groups of the branches and parts so far. -/
def groups (l : Level) : List (Text × Regex) :=
  (l.done ++ l.exprs).flatMap Regex.groups

theorem mem_groups : g ∈ l.groups ↔ (∃ r ∈ l.done, g ∈ r.groups) ∨ ∃ r ∈ l.exprs, g ∈ r.groups := by
  simp only [groups, List.mem_flatMap, List.mem_append, or_and_right, exists_or]

theorem mem_groups_add {depth : Nat} :
    g ∈ (l.add r depth).groups ↔ g ∈ r.groups ∨ g ∈ l.groups := by
  have done : (l.add r depth).done = l.done := rfl
  simp only [mem_groups, exprs_add, done, List.mem_append, List.mem_singleton, or_and_right,
    exists_or, exists_eq_left]
  grind

theorem mem_groups_branchOf {rs : List Regex} (h : g ∈ (branchOf rs).groups) :
    ∃ r ∈ rs, g ∈ r.groups := by
  obtain ⟨item, mem, inside⟩ := mem_groups_sequence.1 h
  obtain ⟨r, known, mem⟩ := List.mem_flatMap.1 mem
  exact ⟨r, known, mem_groups_items.1 ⟨item, mem, inside⟩⟩

theorem mem_groups_of_body (h : g ∈ l.body.1.groups) : g ∈ l.groups := by
  have parts : ∃ r ∈ l.done ++ [branchOf l.exprs], g ∈ r.groups := by
    rw [body_fst] at h
    generalize l.done ++ [branchOf l.exprs] = rs at h
    cases rs with
    | nil => cases h
    | cons r rs => exact mem_groups_firstOf h
  obtain ⟨r, mem, inside⟩ := parts
  rcases List.mem_append.1 mem with mem | mem
  · exact mem_groups.2 (.inl ⟨r, mem, inside⟩)
  · obtain rfl := List.mem_singleton.1 mem
    exact mem_groups.2 (.inr (mem_groups_branchOf inside))

theorem mem_groups_of_endBranch (h : g ∈ l.endBranch.groups) : g ∈ l.groups := by
  rcases mem_groups.1 h with ⟨r, mem, inside⟩ | ⟨r, mem, -⟩
  · rw [done_endBranch, List.mem_append, List.mem_singleton] at mem
    rcases mem with mem | rfl
    · exact mem_groups.2 (.inl ⟨r, mem, inside⟩)
    · exact mem_groups.2 (.inr (mem_groups_branchOf inside))
  · cases mem

theorem mem_groups_of_repeated {depth depth' least : Nat} {most : Option Nat} {greedy : Bool}
    {parts : List Part} (latest : l.parts = ⟨some r, depth⟩ :: parts)
    (h : g ∈ Level.groups { l with parts :=
      ⟨some (repeated r least most greedy), depth'⟩ :: parts }) : g ∈ l.groups := by
  have before : l = ({ l with parts } : Level).add r depth := by
    obtain ⟨flags, branches, parts⟩ := l
    obtain rfl : parts = _ := latest
    rfl
  rw [before, mem_groups_add]
  exact (mem_groups_add.1 h).imp_left mem_groups_repeated

end Level

namespace Reader

variable {a b c : Reader} {names : List Text} {lexeme : Lexeme} {lexemes : List Lexeme}

/-- The groups of all levels. -/
def groups (s : Reader) : List (Text × Regex) :=
  s.level.groups ++ s.outer.flatMap (·.2.groups)

/-- The names of the groups that are open, the innermost first. -/
inductive Opened : List Frame → List Text → Prop
  | nil : Opened [] []
  | cons {frame : Frame} {frames : List Frame} {names : List Text} (name? : Option Text)
    (wraps : ∀ r, ∀ g ∈ (frame.1 r).groups, g ∈ name?.map (·, r) ∨ g ∈ r.groups)
    (tail : Opened frames names) : Opened (frame :: frames) (name?.toList ++ names)

/-- The given groups are open. All groups so far have different names from these, and the names
of all have been used. -/
structure Opens (names : List Text) (s : Reader) : Prop where
  opened : Opened s.outer names
  distinct : names.Nodup
  used : ∀ name ∈ names, name ∈ s.names
  closed : ∀ g ∈ s.groups, g.1 ∈ s.names ∧ g.1 ∉ names

/-- Other groups are open later on. None of them has been read before, and the groups that have
been read in between were open. -/
structure GoesOn (names : List Text) (a : Reader) (names' : List Text) (b : Reader) : Prop where
  opens : b.Opens names'
  used : ∀ name ∈ a.names, name ∈ b.names
  new : ∀ name ∈ names', name ∈ names ∨ name ∉ a.names
  groups : ∀ g ∈ b.groups, g ∈ a.groups ∨ g.1 ∈ names

theorem opens_nil {flags : Flags} : Opens [] { level := { flags } } :=
  ⟨.nil, .nil, List.forall_mem_nil _, List.forall_mem_nil _⟩

/-- Nothing happens if no group is opened or closed. -/
theorem Opens.stays (h : a.Opens names) (outer : b.outer = a.outer) (same : b.names = a.names)
    (groups : ∀ g ∈ b.level.groups, g ∈ a.level.groups) : GoesOn names a names b := by
  have sub : ∀ g ∈ b.groups, g ∈ a.groups := by
    intro g mem
    rw [Reader.groups, outer] at mem
    exact (List.mem_append.1 mem).elim (fun mem => List.mem_append_left _ (groups g mem))
      (List.mem_append_right _)
  refine ⟨⟨outer ▸ h.opened, h.distinct, same ▸ h.used, fun g mem => ?_⟩, fun _ mem => same ▸ mem,
    fun _ => .inl, fun g mem => .inl (sub g mem)⟩
  rw [same]
  exact h.closed g (sub g mem)

theorem Opens.add (h : a.Opens names) {r : Regex} (none : r.groups = []) (depth : Nat) :
    GoesOn names a names (a.add r depth) := by
  refine h.stays rfl rfl fun g mem => ?_
  rcases Level.mem_groups_add.1 mem with own | mem
  · rw [none] at own
    cases own
  · exact mem

theorem Opens.openGroup (h : a.Opens names) (flags : Flags) (name? : Option Text)
    {wrap : Regex → Regex} (new : ∀ name ∈ name?, name ∉ a.names)
    (wraps : ∀ r, ∀ g ∈ (wrap r).groups, g ∈ name?.map (·, r) ∨ g ∈ r.groups) :
    GoesOn names a (name?.toList ++ names)
      { a.openGroup flags wrap with names := name?.toList ++ a.names } := by
  refine ⟨⟨.cons name? wraps h.opened, ?_, ?_, ?_⟩, fun _ => List.mem_append_right _, ?_,
    fun g mem => .inl mem⟩
  · refine List.nodup_append.2 ⟨by cases name? <;> simp, h.distinct, ?_⟩
    rintro name mem _ mem' rfl
    exact new name (by simpa using mem) (h.used name mem')
  · intro name mem
    exact (List.mem_append.1 mem).elim (List.mem_append_left _)
      fun mem => List.mem_append_right _ (h.used name mem)
  · intro g mem
    obtain ⟨known, other⟩ := h.closed g mem
    refine ⟨List.mem_append_right _ known, fun mem => ?_⟩
    exact (List.mem_append.1 mem).elim (fun mem => new _ (by simpa using mem) known) other
  · intro name mem
    exact (List.mem_append.1 mem).symm.imp_right fun mem => new name (by simpa using mem)

/-- At the end of a group there is one group more, the one that was opened last. -/
theorem Opens.close {frame : Frame} {frames : List Frame} {name? : Option Text}
    (h : a.Opens (name?.toList ++ names)) (outer : a.outer = frame :: frames)
    (wraps : ∀ r, ∀ g ∈ (frame.1 r).groups, g ∈ name?.map (·, r) ∨ g ∈ r.groups)
    (tail : Opened frames names) (step : a.step? .close = some b) :
    b.Opens names ∧ b.names = a.names ∧
      ∀ g ∈ b.groups, g ∈ a.groups ∨ g ∈ name?.map (·, a.level.body.1) := by
  simp only [step?, outer] at step
  obtain rfl := Option.some.inj step
  have sub : ∀ g ∈ Reader.groups { a with
      level := frame.2.add (frame.1 a.level.body.1) (a.level.body.2 + 1), outer := frames },
      g ∈ a.groups ∨ g ∈ name?.map (·, a.level.body.1) := by
    intro g mem
    simp only [Reader.groups, List.mem_append, Level.mem_groups_add] at mem
    simp only [Reader.groups, outer, List.flatMap_cons, List.mem_append]
    rcases mem with (mem | mem) | mem
    · exact (wraps _ g mem).elim .inr fun mem => .inl (.inl (Level.mem_groups_of_body mem))
    · exact .inl (.inr (.inl mem))
    · exact .inl (.inr (.inr mem))
  obtain ⟨-, distinct, fresh⟩ := List.nodup_append.1 h.distinct
  refine ⟨⟨tail, distinct, fun name mem => h.used name (List.mem_append_right _ mem),
    fun g mem => ?_⟩, rfl, sub⟩
  rcases sub g mem with old | new
  · obtain ⟨known, other⟩ := h.closed g old
    exact ⟨known, fun mem => other (List.mem_append_right _ mem)⟩
  · obtain ⟨name, rfl, rfl⟩ := Option.map_eq_some_iff.1 new
    exact ⟨h.used name (by simp), fun mem => fresh name (by simp) name mem rfl⟩

theorem groups_of_one? {f : Flags} {set : CharSet} {r : Regex} (h : f.one? set = some r) :
    r.groups = [] := by
  unfold Flags.one? at h
  split at h
  · obtain rfl := Option.some.inj h
    rfl
  · obtain ⟨set, -, rfl⟩ := Option.map_eq_some_iff.1 h
    rfl

theorem groups_of_dot? {f : Flags} {r : Regex} (h : f.dot? = some r) : r.groups = [] := by
  unfold Flags.dot? at h
  split at h
  · cases h
  · split at h
    · obtain rfl := Option.some.inj h
      rfl
    · split at h
      all_goals
        obtain rfl := Option.some.inj h
        rfl

theorem groups_char (f : Flags) (c : Char) : (f.char c).groups = [] := by
  unfold Flags.char
  split <;> rfl

/-- No lexeme stands for a group by itself. -/
theorem groups_of_expr? {f : Flags} {r : Regex} (expr : f.expr? lexeme = some r) :
    r.groups = [] := by
  cases lexeme with
  | char c =>
    obtain rfl := Option.some.inj expr
    exact groups_char f c
  | byte c =>
    simp only [Flags.expr?, Option.ite_none_right_eq_some, Option.some.injEq] at expr
    obtain ⟨-, rfl⟩ := expr
    exact groups_char f c
  | set set | bracket item => exact groups_of_one? expr
  | dot => exact groups_of_dot? expr
  | caret | dollar | look condition =>
    obtain rfl := Option.some.inj expr
    rfl
  | _ => cases expr

theorem Opens.exists_goesOn (h : a.Opens names) (step : a.step? lexeme = some b) :
    ∃ names', GoesOn names a names' b := by
  cases steps_of_step? step with
  | add expr => exact ⟨names, h.add (groups_of_expr? expr) _⟩
  | count latest => exact ⟨names, h.stays rfl rfl fun g => Level.mem_groups_of_repeated latest⟩
  | branch => exact ⟨names, h.stays rfl rfl fun g => Level.mem_groups_of_endBranch⟩
  | setFlags =>
    exact ⟨names, h.stays rfl rfl fun g mem => by
      simpa [Level.groups, Level.exprs, Level.done] using mem⟩
  | @openCapture name? new =>
    refine ⟨_, h.openGroup a.flags name? new fun r g mem => ?_⟩
    exact (List.mem_append.1 mem).imp_left (by simp)
  | openGroup => exact ⟨_, h.openGroup _ none (by simp) fun r g mem => .inr mem⟩
  | close closes =>
    have opened := h.opened
    rw [closes] at opened
    cases opened with
    | @cons _ _ rest name? wraps tail =>
      obtain ⟨later, same, groups⟩ := h.close closes wraps tail step
      refine ⟨rest, later, fun _ mem => same ▸ mem,
        fun name mem => .inl (List.mem_append_right _ mem), fun g mem => ?_⟩
      refine (groups g mem).imp_right fun new => ?_
      obtain ⟨name, rfl, rfl⟩ := Option.map_eq_some_iff.1 new
      simp

theorem Opens.exists_foldlM (h : a.Opens names) (run : lexemes.foldlM step? a = some b) :
    ∃ names', b.Opens names' := by
  refine of_foldlM (P := fun s => ∃ names, s.Opens names) (fun l _ a b opens step => ?_)
    ⟨names, h⟩ run
  obtain ⟨names, opens⟩ := opens
  obtain ⟨names', goes⟩ := opens.exists_goesOn step
  exact ⟨names', goes.opens⟩

/-! ## One group -/

/-- A group of the name has been closed, and all of its groups have the expression. -/
structure HasRead (name : Text) (body : Regex) (s : Reader) : Prop where
  opens : ∃ names, s.Opens names ∧ name ∉ names
  used : name ∈ s.names
  groups : ∀ g ∈ s.groups, g.1 = name → g.2 = body

variable {name : Text} {body : Regex}

theorem HasRead.step? (h : a.HasRead name body) (step : a.step? lexeme = some b) :
    b.HasRead name body := by
  obtain ⟨names, opens, closed⟩ := h.opens
  obtain ⟨names', goes⟩ := opens.exists_goesOn step
  refine ⟨⟨names', goes.opens, fun mem => ?_⟩, goes.used name h.used, fun g mem same => ?_⟩
  · exact (goes.new name mem).elim closed fun fresh => fresh h.used
  · rcases goes.groups g mem with old | open_
    · exact h.groups g old same
    · exact absurd (same ▸ open_) closed

theorem HasRead.foldlM (h : a.HasRead name body) (run : lexemes.foldlM Reader.step? a = some b) :
    b.HasRead name body :=
  of_foldlM (fun _ _ _ _ h step => h.step? step) h run

/-- At the end of a named group. -/
theorem Opens.hasRead {around : Level} {frames : List Frame} (h : a.Opens names)
    (outer : a.outer = (Regex.group (some name), around) :: frames)
    (step : a.step? .close = some b) : b.HasRead name a.level.body.1 := by
  have opened := h.opened
  rw [outer] at opened
  cases opened with
  | @cons _ _ rest name? wraps tail =>
    obtain rfl : name? = some name := by
      have own := wraps .empty (name, .empty) List.mem_cons_self
      simpa [Regex.groups, Option.map_eq_some_iff] using own
    obtain ⟨later, same, groups⟩ := h.close outer wraps tail step
    refine ⟨⟨rest, later, (List.nodup_cons.1 h.distinct).1⟩, ?_, fun g mem eq => ?_⟩
    · rw [same]
      exact h.used name List.mem_cons_self
    · rcases groups g mem with old | new
      · exact absurd (eq ▸ List.mem_cons_self) (h.closed g old).2
      · obtain rfl := Option.some.inj new
        rfl

end Reader

/-- A piece of text that is read as a named group tells the expression of all groups of that
name. -/
theorem snd_eq_of_mem_groups {front text back : Text} {lexemes : List Lexeme} {bs : List Regex}
    (parsed : parse? (front ++ ("(?P<" ++ name ++ ['>'] ++ text ++ ")") ++ back) = some r)
    (cuts : Cuts front lexemes) (valid : readGroupName? (name ++ ['>']) = some (name, []))
    (branches : HasBranches false text bs) (mem : g ∈ r.groups) (same : g.1 = name) :
    g.2 = oneOf bs := by
  obtain ⟨done, exprs, ⟨inner, cuts', reads⟩, rfl⟩ := branches
  obtain ⟨all, reader, lexed, run, -, rfl⟩ := exists_of_parse? parsed
  have opening : Cuts ("(?P<" ++ name ++ ['>'] ++ text) (.openCapture (some name) :: inner) :=
    .cons (IsFragment.opens_named valid text) trivial cuts'
  have stands : Stands ("(?P<" ++ name ++ ['>'] ++ text) := ⟨by simp, by simp⟩
  -- the group ends with a lexeme of its own, whatever follows
  have closing : Stands (')' :: back) := ⟨by simp, by simp⟩
  obtain ⟨outer, quiet, cut⟩ := (cuts.append opening stands).exists_lexemesFrom? closing
    (List.forall_mem_nil _)
  have last : lexemesFrom? false outer (')' :: back) =
      (lexemesFrom? false (verboseAfter false outer .close).2 back).map (.close :: ·) := by
    have quiet' : (verboseAfter false outer .close).1 = false :=
      (verboseAfter_of_keepsFlags quiet (show Lexeme.close.KeepsFlags from trivial)).1
    rw [lexemesFrom?_eq rfl (Nat.lt_succ_self _), quiet']
  have text_eq : front ++ ("(?P<" ++ name ++ ['>'] ++ text ++ (")" : Text)) ++ back =
      front ++ ("(?P<" ++ name ++ ['>'] ++ text) ++ ')' :: back := by simp
  rw [text_eq, lexemes?, cut, last] at lexed
  obtain ⟨_, rest, rfl⟩ := Option.map_eq_some_iff.1 lexed
  obtain ⟨others, -, rfl⟩ := Option.map_eq_some_iff.1 rest
  rw [List.foldlM_append] at run
  obtain ⟨b, first, run⟩ := Option.bind_eq_some_iff.1 run
  rw [List.foldlM_cons] at run
  obtain ⟨c, close, run⟩ := Option.bind_eq_some_iff.1 run
  obtain ⟨names, opens⟩ := Reader.opens_nil.exists_foldlM first
  -- between its ends the group has the expression of the text
  rw [List.foldlM_append] at first
  obtain ⟨a, before, first⟩ := Option.bind_eq_some_iff.1 first
  rw [List.foldlM_cons] at first
  obtain ⟨a', open_, first⟩ := Option.bind_eq_some_iff.1 first
  have flags : a.level.flags = initialFlags false :=
    (Reader.HasFlags.foldlM ⟨rfl, List.forall_mem_nil _⟩ cuts.keepsFlags before).here
  simp only [Reader.step?, Option.ite_none_left_eq_some, Option.some.injEq] at open_
  obtain ⟨-, rfl⟩ := open_
  have inside := reads { a.openGroup a.flags (.group (some name)) with names := name :: a.names } b
    flags rfl first
  have body : b.level.body.1 = oneOf (done ++ [branchOf exprs]) := by
    rw [Level.body_fst, inside.done, inside.exprs]
    rfl
  have last := (opens.hasRead inside.outer close).foldlM run
  rw [← body]
  exact last.groups g (List.mem_append_left _ (Level.mem_groups_of_body mem)) same

end Regex

end RulesText
