import RulesText.Proofs.Regex.Lexemes
import RulesText.Regex.Parser

/-!
# Fragments of patterns

A fragment is a text that can stand anywhere in a pattern: it is cut into lexemes by itself, opens
and closes its own groups, and every count in it has something before it. Fragments one after
the other are a fragment, and so is a group around one. A fragment whose group names are all
different is an expression, if nesting is not limited.

## Main definitions

* `Regex.Cuts`: a text and its lexemes.
* `Regex.Reader.Steps`: all that a lexeme can do to a reader.
* `Regex.Shape`: as much of a reader as decides whether it can go on.
* `Regex.IsFragment`: a fragment with the names of its groups.
* `Regex.read?`: the expression of a pattern and how deep it is nested, without a limit.
-/

namespace RulesText.Regex

variable {t u s rest name : Text} {lexeme : Lexeme} {lexemes others : List Lexeme}

/-! ## Texts and their lexemes -/

/-- The text is cut into the lexemes, none of which changes flags. -/
inductive Cuts : Text → List Lexeme → Prop
  | nil : Cuts [] []
  | cons {t rest : Text} {lexeme : Lexeme} {lexemes : List Lexeme}
    (read : readLexeme? false t = some (lexeme, rest)) (keeps : lexeme.KeepsFlags)
    (tail : Cuts rest lexemes) : Cuts t (lexeme :: lexemes)

theorem length_lt_of_readLexeme? (read : readLexeme? false t = some (lexeme, rest))
    (keeps : lexeme.KeepsFlags) : rest.length < t.length := by
  obtain ⟨w, rfl, nonempty, -⟩ := takes_readLexeme? read keeps
  rw [List.length_append]
  exact Nat.lt_add_of_pos_left (List.length_pos_iff.2 nonempty)

theorem lexemesFrom?_eq {outer : List Bool} (read : readLexeme? false t = some (lexeme, rest))
    (less : rest.length < t.length) :
    lexemesFrom? false outer t =
      (lexemesFrom? (verboseAfter false outer lexeme).1 (verboseAfter false outer lexeme).2
        rest).map (lexeme :: ·) := by
  have progress : Text.progress? t (readLexeme? false t) = some (lexeme, ⟨rest, less⟩) :=
    progress?_eq_some.2 read
  cases t with
  | nil => cases read
  | cons c t =>
    rw [lexemesFrom?]
    dsimp only [ignore_false]
    rw [progress]

theorem verboseAfter_of_keepsFlags {outer : List Bool} (quiet : ∀ b ∈ outer, b = false)
    (keeps : lexeme.KeepsFlags) :
    (verboseAfter false outer lexeme).1 = false ∧
      ∀ b ∈ (verboseAfter false outer lexeme).2, b = false := by
  cases lexeme with
  | openCapture name? => exact ⟨rfl, List.forall_mem_cons.2 ⟨rfl, quiet⟩⟩
  | openGroup change =>
    obtain rfl : change = [] := keeps
    exact ⟨rfl, List.forall_mem_cons.2 ⟨rfl, quiet⟩⟩
  | setFlags change => cases keeps
  | close =>
    cases outer with
    | nil => exact ⟨rfl, quiet⟩
    | cons b outer => exact ⟨quiet b List.mem_cons_self, (List.forall_mem_cons.1 quiet).2⟩
  | _ => exact ⟨rfl, quiet⟩

/-- A text that is cut into lexemes is read as these. -/
theorem Cuts.lexemesFrom? (h : Cuts t lexemes) {outer : List Bool}
    (quiet : ∀ b ∈ outer, b = false) : lexemesFrom? false outer t = some lexemes := by
  induction h generalizing outer with
  | nil => rw [Regex.lexemesFrom?]; rfl
  | cons read keeps _ ih =>
    obtain ⟨same, quiet⟩ := verboseAfter_of_keepsFlags quiet keeps
    rw [lexemesFrom?_eq read (length_lt_of_readLexeme? read keeps), same, ih quiet]
    rfl

theorem exists_of_lexemesFrom? {outer : List Bool} {c : Char}
    (h : lexemesFrom? false outer (c :: t) = some lexemes) :
    ∃ lexeme rest, readLexeme? false (c :: t) = some (lexeme, rest) ∧
      rest.length < (c :: t).length ∧ lexemes.head? = some lexeme := by
  rw [lexemesFrom?] at h
  dsimp only [ignore_false] at h
  cases progress : Text.progress? (c :: t) (readLexeme? false (c :: t)) with
  | none => simp [progress] at h
  | some result =>
    obtain ⟨lexeme, rest, less⟩ := result
    rw [progress] at h
    obtain ⟨others, -, rfl⟩ := Option.map_eq_some_iff.1 h
    exact ⟨lexeme, rest, progress?_eq_some.1 progress, less, rfl⟩

theorem cuts_of_lexemesFrom? {outer : List Bool} (quiet : ∀ b ∈ outer, b = false)
    (h : lexemesFrom? false outer t = some lexemes) (keeps : ∀ l ∈ lexemes, l.KeepsFlags) :
    Cuts t lexemes := by
  induction lexemes generalizing t outer with
  | nil =>
    cases t with
    | nil => exact .nil
    | cons c t =>
      obtain ⟨lexeme, rest, -, -, first⟩ := exists_of_lexemesFrom? h
      cases first
  | cons lexeme lexemes ih =>
    cases t with
    | nil =>
      rw [lexemesFrom?] at h
      cases h
    | cons c t =>
      obtain ⟨_, rest, read, less, first⟩ := exists_of_lexemesFrom? h
      obtain rfl := Option.some.inj first
      obtain ⟨own, keeps⟩ := List.forall_mem_cons.1 keeps
      obtain ⟨same, quiet⟩ := verboseAfter_of_keepsFlags quiet own
      rw [lexemesFrom?_eq read less, same] at h
      obtain ⟨others, later, eq⟩ := Option.map_eq_some_iff.1 h
      obtain rfl := (List.cons.inj eq).2
      exact .cons read own (ih quiet later keeps)

theorem Cuts.keepsFlags (h : Cuts t lexemes) : ∀ l ∈ lexemes, l.KeepsFlags := by
  induction h with
  | nil => simp
  | cons _ keeps _ ih => exact List.forall_mem_cons.2 ⟨keeps, ih⟩

theorem Cuts.name?_eq_none (h : Cuts t lexemes) (noAngle : '<' ∉ t) :
    ∀ l ∈ lexemes, l.name? = none := by
  induction h with
  | nil => simp
  | cons read keeps _ ih =>
    obtain ⟨w, rfl, -⟩ := takes_readLexeme? read keeps
    refine List.forall_mem_cons.2 ⟨?_, ih fun mem => noAngle (List.mem_append_right _ mem)⟩
    by_contra named
    obtain ⟨name, eq⟩ := Option.ne_none_iff_exists'.1 named
    exact noAngle (angle_of_readLexeme? read keeps eq)

/-! ## Texts one after the other -/

/-- A text that can stand behind any other: it does not begin like a count. -/
structure Stands (t : Text) : Prop where
  question : t.head? ≠ some '?'
  brace : t.head? ≠ some '{'

theorem Stands.follows (h : Stands t) (rest : Text) : Follows rest t :=
  ⟨fun eq => absurd eq h.question, fun eq => absurd eq h.brace⟩

theorem not_cuts_brace : ¬Cuts ['{'] lexemes := by
  intro h
  cases h with
  | cons read => cases read

theorem Cuts.follows (h : Cuts rest lexemes) (stands : Stands t) : Follows rest (rest ++ t) := by
  cases rest with
  | nil => exact stands.follows []
  | cons c rest =>
    refine ⟨fun eq => eq, fun eq => ?_⟩
    obtain rfl : c = '{' := by simpa using eq
    cases rest with
    | nil => exact absurd h not_cuts_brace
    | cons d rest => rfl

theorem Cuts.append (h : Cuts s lexemes) (h' : Cuts t others) (stands : Stands t) :
    Cuts (s ++ t) (lexemes ++ others) := by
  induction h with
  | nil => exact h'
  | cons read keeps tail ih =>
    obtain ⟨w, rfl, -, -, takes⟩ := takes_readLexeme? read keeps
    rw [List.append_assoc]
    exact .cons (takes _ (tail.follows stands)) keeps ih

/-- A text in front of another one is cut as it is by itself. -/
theorem Cuts.exists_lexemesFrom? (h : Cuts s lexemes) (stands : Stands t) {outer : List Bool}
    (quiet : ∀ b ∈ outer, b = false) : ∃ outer', (∀ b ∈ outer', b = false) ∧
      Regex.lexemesFrom? false outer (s ++ t) =
        (Regex.lexemesFrom? false outer' t).map (lexemes ++ ·) := by
  induction h generalizing outer with
  | nil => exact ⟨outer, quiet, by simp⟩
  | cons read keeps tail ih =>
    obtain ⟨w, rfl, nonempty, -, takes⟩ := takes_readLexeme? read keeps
    obtain ⟨same, quiet⟩ := verboseAfter_of_keepsFlags quiet keeps
    obtain ⟨outer', quiet, rest⟩ := ih quiet
    refine ⟨outer', quiet, ?_⟩
    have longer := takes _ (tail.follows stands)
    rw [List.append_assoc, lexemesFrom?_eq longer (length_lt_of_readLexeme? longer keeps), same,
      rest, Option.map_map]
    rfl

/-- A letter y at the end of a text is a lexeme of its own. -/
theorem Cuts.of_append_y (h : Cuts (s ++ ['y']) lexemes) :
    ∃ others, lexemes = others ++ [.char 'y'] ∧ Cuts s others := by
  generalize eq : s ++ ['y'] = t at h
  induction h generalizing s with
  | nil => simp at eq
  | cons read keeps tail ih =>
    rename_i t rest lexeme lexemes
    obtain ⟨w, rfl, nonempty, last, takes⟩ := takes_readLexeme? read keeps
    rcases List.eq_nil_or_concat rest with rfl | ⟨front, c, rfl⟩
    · have y : w = s ++ ['y'] := by simpa using eq.symm
      obtain rfl : s = [] := by simpa using y.symm.trans (last (by simp [y]))
      subst y
      obtain ⟨rfl, -⟩ := Prod.mk.inj (Option.some.inj read)
      cases tail with
      | nil => exact ⟨[], rfl, .nil⟩
      | cons read => cases read
    · rw [List.concat_eq_append, ← List.append_assoc] at eq
      obtain ⟨rfl, rfl⟩ : s = w ++ front ∧ 'y' = c := by simpa using List.append_inj' eq rfl
      obtain ⟨others, rfl, inner⟩ := ih (List.concat_eq_append).symm
      have follows : Follows (front.concat 'y') front := by
        cases front with
        | nil => exact ⟨nofun, nofun⟩
        | cons d front =>
          refine ⟨fun eq => eq, fun eq => ?_⟩
          obtain rfl : d = '{' := by simpa using eq
          cases front with
          | nil => exact absurd inner not_cuts_brace
          | cons d rest => rfl
      exact ⟨lexeme :: others, rfl, .cons (takes _ follows) keeps inner⟩

/-! ## What a lexeme does to a reader -/

/-- The expression that a lexeme stands for by itself, if it does. -/
def Flags.expr? (f : Flags) : Lexeme → Option Regex
  | .char c => some (f.char c)
  | .byte c => if f.unicode || Text.isAscii c then some (f.char c) else none
  | .set set => f.one? set
  | .bracket item => f.one? item.set
  | .dot => f.dot?
  | .caret => some (.look f.caret)
  | .dollar => some (.look f.dollar)
  | .look condition => some (.look (f.look condition))
  | _ => none

/-- How deep that expression is. -/
def Lexeme.depth : Lexeme → Nat
  | bracket item => item.depth
  | _ => 0

theorem Flags.name?_of_expr? {f : Flags} {r : Regex} (expr : f.expr? lexeme = some r) :
    lexeme.name? = none := by
  cases lexeme <;> first | rfl | cases expr

namespace Reader

variable {a b : Reader}

/-- What a reader can become by a lexeme. -/
inductive Steps (a : Reader) : Lexeme → Reader → Prop
  | add {lexeme : Lexeme} {r : Regex} (expr : a.flags.expr? lexeme = some r) :
    Steps a lexeme (a.add r lexeme.depth)
  | count {least : Nat} {most : Option Nat} {lazy : Bool} {r : Regex} {depth : Nat}
    {parts : List Part} (latest : a.level.parts = ⟨some r, depth⟩ :: parts) :
    Steps a (.count least most lazy) { a with level := { a.level with parts :=
      ⟨some (repeated r least most (lazy == a.level.flags.swapGreed)), depth + 1⟩ :: parts } }
  | branch : Steps a .branch { a with level := a.level.endBranch }
  | openCapture {name? : Option Text} (new : ∀ name ∈ name?, name ∉ a.names) :
    Steps a (.openCapture name?)
      { a.openGroup a.flags (group name?) with names := name?.toList ++ a.names }
  | openGroup {change : FlagChange} :
    Steps a (.openGroup change) (a.openGroup (a.flags.change change) id)
  | setFlags {change : FlagChange} : Steps a (.setFlags change) { a with level := { a.level with
      flags := a.flags.change change, parts := { regex? := none } :: a.level.parts } }
  | close {wrap : Regex → Regex} {around : Level} {outer : List ((Regex → Regex) × Level)}
    (closes : a.outer = (wrap, around) :: outer) : Steps a .close
      { a with level := around.add (wrap a.level.body.1) (a.level.body.2 + 1), outer }

/-- A lexeme that stands for an expression adds it to the current branch. -/
theorem step?_of_expr? {r : Regex} (expr : a.flags.expr? lexeme = some r) :
    a.step? lexeme = some (a.add r lexeme.depth) := by
  cases lexeme with
  | char c | caret | dollar | look condition =>
    obtain rfl := Option.some.inj expr
    rfl
  | byte c =>
    simp only [Flags.expr?, Option.ite_none_right_eq_some, Option.some.injEq] at expr
    obtain ⟨fits, rfl⟩ := expr
    exact if_pos fits
  | set set | bracket item | dot => exact Option.map_eq_some_iff.2 ⟨r, expr, rfl⟩
  | _ => cases expr

theorem Steps.step?_eq (h : a.Steps lexeme b) : a.step? lexeme = some b := by
  cases h with
  | add expr => exact step?_of_expr? expr
  | count latest => rw [step?, Level.count?, latest]; rfl
  | openCapture new =>
    refine if_neg fun used => ?_
    obtain ⟨name, own, known⟩ := (Option.any_eq_true _ _).1 used
    exact new name own (List.contains_iff_mem.1 known)
  | close closes => rw [step?, closes]
  | _ => rfl

/-- All that a lexeme can do to a reader. -/
theorem steps_of_step? (h : a.step? lexeme = some b) : a.Steps lexeme b := by
  cases lexeme with
  | char c | caret | dollar | look condition =>
    obtain rfl := Option.some.inj h
    exact .add rfl
  | byte c =>
    simp only [step?, Option.ite_none_right_eq_some, Option.some.injEq] at h
    obtain ⟨fits, rfl⟩ := h
    exact .add (if_pos fits)
  | set set | bracket item | dot =>
    obtain ⟨r, one, rfl⟩ := Option.map_eq_some_iff.1 h
    exact .add one
  | count least most lazy =>
    obtain ⟨level, counted, rfl⟩ := Option.map_eq_some_iff.1 h
    unfold Level.count? at counted
    split at counted
    · obtain rfl := Option.some.inj counted
      exact .count ‹_›
    · cases counted
  | branch | openGroup change | setFlags change =>
    obtain rfl := Option.some.inj h
    constructor
  | openCapture name? =>
    simp only [step?, Option.ite_none_left_eq_some, Option.some.injEq] at h
    obtain ⟨new, rfl⟩ := h
    refine .openCapture fun name own used => new ?_
    exact (Option.any_eq_true _ _).2 ⟨name, own, List.contains_iff_mem.2 used⟩
  | close =>
    rw [step?] at h
    split at h
    · cases h
    · obtain rfl := Option.some.inj h
      exact .close ‹_›

end Reader

/-! ## Readers -/

/-- As much of a reader as decides whether it can go on: whether a count can come next, and how
many groups are open. -/
structure Shape where
  countable : Bool
  depth : Nat

def Shape.step? (s : Shape) : Lexeme → Option Shape
  | .count _ _ _ => if s.countable then some s else none
  | .branch => some { s with countable := false }
  | .openCapture _ | .openGroup _ => some { countable := false, depth := s.depth + 1 }
  | .setFlags _ => some { s with countable := false }
  | .close =>
    match s.depth with
    | 0 => none
    | depth + 1 => some { countable := true, depth }
  | _ => some { s with countable := true }

theorem Shape.step?_of_expr? {f : Flags} {r : Regex} (expr : f.expr? lexeme = some r)
    (s : Shape) : s.step? lexeme = some { s with countable := true } := by
  cases lexeme <;> first | rfl | cases expr

def Level.countable (l : Level) : Bool :=
  l.parts.head?.any (·.regex?.isSome)

theorem Level.exists_latest {l : Level} (h : l.countable = true) :
    ∃ r depth parts, l.parts = ⟨some r, depth⟩ :: parts := by
  unfold Level.countable at h
  cases eq : l.parts with
  | nil => simp [eq] at h
  | cons part parts =>
    obtain ⟨regex?, depth⟩ := part
    cases regex? with
    | none => simp [eq] at h
    | some r => exact ⟨r, depth, parts, rfl⟩

namespace Reader

variable {a b : Reader}

def shape (s : Reader) : Shape where
  countable := s.level.countable
  depth := s.outer.length

/-- Characters of all scripts count in all groups that are open. -/
structure IsUnicode (s : Reader) : Prop where
  here : s.level.flags.unicode = true
  around : ∀ frame ∈ s.outer, frame.2.flags.unicode = true

theorem IsUnicode.add (h : a.IsUnicode) (r : Regex) (depth : Nat) : (a.add r depth).IsUnicode :=
  ⟨h.here, h.around⟩

theorem IsUnicode.openGroup (h : a.IsUnicode) (wrap : Regex → Regex) (names : List Text) :
    IsUnicode { a.openGroup a.flags wrap with names } :=
  ⟨h.here, List.forall_mem_cons.2 ⟨h.here, h.around⟩⟩

/-- What one lexeme does to the shape and the names of a reader. -/
theorem step?_eq_some (unicode : a.IsUnicode) (keeps : lexeme.KeepsFlags)
    (h : a.step? lexeme = some b) :
    b.IsUnicode ∧ a.shape.step? lexeme = some b.shape ∧
      b.names = lexeme.name?.toList ++ a.names := by
  cases steps_of_step? h with
  | add expr =>
    refine ⟨unicode.add _ _, Shape.step?_of_expr? expr _, ?_⟩
    rw [Flags.name?_of_expr? expr]
    rfl
  | count latest =>
    refine ⟨⟨unicode.here, unicode.around⟩, ?_, rfl⟩
    simp [Shape.step?, shape, Level.countable, latest]
  | branch => exact ⟨⟨unicode.here, unicode.around⟩, rfl, rfl⟩
  | openCapture new => exact ⟨unicode.openGroup _ _, rfl, rfl⟩
  | @openGroup change =>
    obtain rfl : change = [] := keeps
    exact ⟨unicode.openGroup _ _, rfl, rfl⟩
  | setFlags => cases keeps
  | close closes =>
    obtain ⟨around, within⟩ := List.forall_mem_cons.1 (closes ▸ unicode.around)
    refine ⟨⟨around, within⟩, ?_, rfl⟩
    simp [Shape.step?, shape, closes, Level.countable, Level.add]

/-- A reader goes on where its shape does and no name is used again. -/
theorem exists_step? {next : Shape} (unicode : a.IsUnicode) (keeps : lexeme.KeepsFlags)
    (h : a.shape.step? lexeme = some next) (new : ∀ name ∈ lexeme.name?, name ∉ a.names) :
    ∃ b, a.step? lexeme = some b := by
  cases lexeme with
  | byte c => exact ⟨_, if_pos (by rw [flags, unicode.here]; rfl)⟩
  | set set => exact ⟨_, step?_of_expr? (if_pos unicode.here)⟩
  | bracket item => exact ⟨_, step?_of_expr? (if_pos unicode.here)⟩
  | dot =>
    have : ∃ r, a.flags.dot? = some r := by
      unfold Flags.dot?
      rw [flags, unicode.here]
      cases a.level.flags.dotMatchesAll <;> cases a.level.flags.carriageReturns <;> exact ⟨_, rfl⟩
    obtain ⟨r, eq⟩ := this
    exact ⟨_, step?_of_expr? eq⟩
  | count least most lazy =>
    have countable : a.level.countable = true := by
      by_contra not
      simp [Shape.step?, shape, not] at h
    obtain ⟨r, depth, parts, latest⟩ := Level.exists_latest countable
    exact ⟨_, (Steps.count latest).step?_eq⟩
  | openCapture name? => exact ⟨_, (Steps.openCapture new).step?_eq⟩
  | setFlags change => cases keeps
  | close =>
    cases closes : a.outer with
    | nil => simp [Shape.step?, shape, closes] at h
    | cons frame frames => exact ⟨_, (Steps.close closes).step?_eq⟩
  | _ => exact ⟨_, rfl⟩

theorem foldlM_eq_some (unicode : a.IsUnicode) (keeps : ∀ l ∈ lexemes, l.KeepsFlags)
    (h : lexemes.foldlM step? a = some b) :
    lexemes.foldlM Shape.step? a.shape = some b.shape := by
  induction lexemes generalizing a with
  | nil =>
    obtain rfl := Option.some.inj h
    rfl
  | cons lexeme lexemes ih =>
    rw [List.foldlM_cons] at h ⊢
    obtain ⟨c, first, h⟩ := Option.bind_eq_some_iff.1 h
    obtain ⟨own, keeps⟩ := List.forall_mem_cons.1 keeps
    obtain ⟨unicode, step, -⟩ := step?_eq_some unicode own first
    rw [step]
    exact ih unicode keeps h

theorem exists_foldlM {last : Shape} (unicode : a.IsUnicode)
    (keeps : ∀ l ∈ lexemes, l.KeepsFlags)
    (h : lexemes.foldlM Shape.step? a.shape = some last)
    (distinct : (lexemes.filterMap Lexeme.name?).Nodup)
    (new : ∀ name ∈ lexemes.filterMap Lexeme.name?, name ∉ a.names) :
    ∃ b, lexemes.foldlM step? a = some b ∧ b.shape = last := by
  induction lexemes generalizing a with
  | nil => exact ⟨a, rfl, Option.some.inj h⟩
  | cons lexeme lexemes ih =>
    rw [List.foldlM_cons] at h
    obtain ⟨next, first, h⟩ := Option.bind_eq_some_iff.1 h
    obtain ⟨own, keeps⟩ := List.forall_mem_cons.1 keeps
    have names : (lexeme :: lexemes).filterMap Lexeme.name? =
        lexeme.name?.toList ++ lexemes.filterMap Lexeme.name? := by
      rw [List.filterMap_cons]
      cases lexeme.name? <;> rfl
    rw [names] at distinct new
    obtain ⟨-, distinct, apart⟩ := List.nodup_append.1 distinct
    obtain ⟨c, step⟩ := exists_step? unicode own first fun name mem =>
      new name (List.mem_append_left _ (by simpa using mem))
    obtain ⟨unicode, same, taken⟩ := step?_eq_some unicode own step
    obtain rfl := Option.some.inj (same.symm.trans first)
    obtain ⟨b, run, eq⟩ := ih unicode keeps h distinct fun name mem => by
      rw [taken, List.mem_append, not_or]
      exact ⟨fun old => apart name old name mem rfl, new name (List.mem_append_right _ mem)⟩
    exact ⟨b, by rw [List.foldlM_cons, step]; exact run, eq⟩

end Reader

namespace Shape

theorem step?_mono {c c' : Bool} {d d' : Nat} (h : step? ⟨c, d⟩ lexeme = some ⟨c', d'⟩) (k : Nat)
    {b : Bool} (more : c = true → b = true) :
    ∃ b', (c' = true → b' = true) ∧ step? ⟨b, d + k⟩ lexeme = some ⟨b', d' + k⟩ := by
  cases lexeme with
  | count least most lazy =>
    cases c with
    | false => cases h
    | true =>
      obtain ⟨rfl, rfl⟩ := Shape.mk.inj (Option.some.inj h)
      exact ⟨b, more, if_pos (more rfl)⟩
  | close =>
    cases d with
    | zero => cases h
    | succ d =>
      obtain ⟨rfl, rfl⟩ := Shape.mk.inj (Option.some.inj h)
      exact ⟨true, fun _ => rfl, by rw [Nat.succ_add]; rfl⟩
  | openCapture _ | openGroup _ =>
    obtain ⟨rfl, rfl⟩ := Shape.mk.inj (Option.some.inj h)
    exact ⟨false, id, by rw [Nat.succ_add]; rfl⟩
  | _ =>
    obtain ⟨rfl, rfl⟩ := Shape.mk.inj (Option.some.inj h)
    exact ⟨_, id, rfl⟩

/-- Where lexemes can be read, they can also be read inside other groups and behind more. -/
theorem foldlM_mono {c c' : Bool} {d d' : Nat}
    (h : lexemes.foldlM step? ⟨c, d⟩ = some ⟨c', d'⟩) (k : Nat) {b : Bool}
    (more : c = true → b = true) :
    ∃ b', (c' = true → b' = true) ∧ lexemes.foldlM step? ⟨b, d + k⟩ = some ⟨b', d' + k⟩ := by
  induction lexemes generalizing c d b with
  | nil =>
    obtain ⟨rfl, rfl⟩ := Shape.mk.inj (Option.some.inj h)
    exact ⟨b, more, rfl⟩
  | cons lexeme lexemes ih =>
    rw [List.foldlM_cons] at h
    obtain ⟨⟨c₁, d₁⟩, first, h⟩ := Option.bind_eq_some_iff.1 h
    obtain ⟨b₁, more, step⟩ := step?_mono first k more
    obtain ⟨b', more, run⟩ := ih h more
    exact ⟨b', more, by rw [List.foldlM_cons, step]; exact run⟩

end Shape

/-! ## Fragments -/

/-- The text is a fragment, and its groups have the given names from left to right. -/
def IsFragment (t : Text) (names : List Text) : Prop :=
  ∃ lexemes countable, Cuts t lexemes ∧
    lexemes.foldlM Shape.step? ⟨false, 0⟩ = some ⟨countable, 0⟩ ∧
    lexemes.filterMap Lexeme.name? = names

namespace IsFragment

variable {names more : List Text}

theorem nil : IsFragment [] [] :=
  ⟨[], false, .nil, rfl, rfl⟩

/-- There is nothing that a count at the start of a fragment could count. -/
theorem stands (h : IsFragment t names) : Stands t := by
  obtain ⟨lexemes, c, cuts, run, -⟩ := h
  have no_count {least : Nat} {most : Option Nat} {u rest : Text} {l : Lexeme} {ls : List Lexeme}
      (read : countLexeme least most u = (l, rest)) : lexemes ≠ l :: ls := by
    rintro rfl
    obtain ⟨lazy, count⟩ := exists_countLexeme least most u
    obtain rfl : l = .count least most lazy := by rw [← count, read]
    cases run
  constructor
  · intro question
    obtain ⟨t, rfl⟩ := List.head?_eq_some_iff.1 question
    cases cuts with
    | cons read => exact no_count (Option.some.inj read) rfl
  · intro brace
    obtain ⟨t, rfl⟩ := List.head?_eq_some_iff.1 brace
    cases cuts with
    | cons read =>
      obtain ⟨⟨bounds, after⟩, -, eq⟩ := Option.map_eq_some_iff.1 read
      exact no_count eq rfl

theorem append (h : IsFragment s names) (h' : IsFragment t more) :
    IsFragment (s ++ t) (names ++ more) := by
  obtain ⟨lexemes, c, cuts, run, rfl⟩ := h
  obtain ⟨others, c', cuts', run', rfl⟩ := id h'
  obtain ⟨b, -, run'⟩ := Shape.foldlM_mono run' 0 (b := c) (by simp)
  refine ⟨lexemes ++ others, b, cuts.append cuts' h'.stands, ?_, List.filterMap_append⟩
  rw [List.foldlM_append, run]
  exact run'

/-- A fragment between the start of a group and its end. -/
theorem enclose {w closing : Text} (h : IsFragment t names)
    (opens : ∀ u, readLexeme? false (w ++ u) = some (lexeme, u)) (keeps : lexeme.KeepsFlags)
    (deeper : ∀ s : Shape, s.step? lexeme = some ⟨false, s.depth + 1⟩)
    (closes : Cuts closing others) (stands : Stands closing)
    (back : ∀ c, others.foldlM Shape.step? ⟨c, 1⟩ = some ⟨true, 0⟩)
    (unnamed : others.filterMap Lexeme.name? = []) :
    IsFragment (w ++ t ++ closing) (lexeme.name?.toList ++ names) := by
  obtain ⟨lexemes, c, cuts, run, rfl⟩ := h
  obtain ⟨b, -, run⟩ := Shape.foldlM_mono run 1 (b := false) id
  refine ⟨lexeme :: (lexemes ++ others), true, ?_, ?_, ?_⟩
  · rw [List.append_assoc]
    exact .cons (opens _) keeps (cuts.append closes stands)
  · rw [List.foldlM_cons, deeper]
    change (lexemes ++ others).foldlM Shape.step? ⟨false, 0 + 1⟩ = _
    rw [List.foldlM_append, run]
    exact back b
  · rw [List.filterMap_cons, List.filterMap_append, unnamed, List.append_nil]
    cases lexeme.name? <;> rfl

theorem cuts_close : Cuts [')'] [.close] :=
  .cons rfl trivial .nil

theorem cuts_optional : Cuts [')', '?'] [.close, .count 0 (some 1) false] :=
  .cons rfl trivial (.cons rfl trivial .nil)

theorem opens_group (u : Text) :
    readLexeme? false (("(?:" : Text) ++ u) = some (.openGroup [], u) := rfl

/-- A group around a fragment. -/
theorem group (h : IsFragment t names) : IsFragment ("(?:" ++ t ++ ")") names :=
  h.enclose opens_group rfl (fun _ => rfl) cuts_close ⟨by decide, by decide⟩ (fun _ => rfl) rfl

theorem optional (h : IsFragment t names) : IsFragment ("(?:" ++ t ++ ")?") names :=
  h.enclose opens_group rfl (fun _ => rfl) cuts_optional ⟨by decide, by decide⟩ (fun _ => rfl) rfl

theorem opens_named (valid : readGroupName? (name ++ ['>']) = some (name, [])) (u : Text) :
    readLexeme? false (("(?P<" : Text) ++ name ++ ['>'] ++ u) =
      some (.openCapture (some name), u) := by
  obtain ⟨-, takes⟩ := takes_readGroupName? valid
  have := takes u
  simp_all [readLexeme?, readGroup?]

/-- A named group around a fragment. -/
theorem named (h : IsFragment t names) (valid : readGroupName? (name ++ ['>']) = some (name, [])) :
    IsFragment ("(?P<" ++ name ++ ['>'] ++ t ++ ")") (name :: names) :=
  h.enclose (opens_named valid) trivial (fun _ => rfl) cuts_close ⟨by decide, by decide⟩
    (fun _ => rfl) rfl

/-- A lexeme that is neither a count nor the start or the end of a group. -/
theorem single (lexeme : Lexeme) {countable : Bool}
    (read : readLexeme? false t = some (lexeme, [])) (keeps : lexeme.KeepsFlags)
    (step : Shape.step? ⟨false, 0⟩ lexeme = some ⟨countable, 0⟩)
    (unnamed : lexeme.name? = none) : IsFragment t [] := by
  refine ⟨[lexeme], countable, .cons read keeps .nil, ?_, by simp [unnamed]⟩
  rw [List.foldlM_cons, step]
  rfl

theorem anchored (h : IsFragment t names) : IsFragment (Regex.anchored t) names := by
  have start : IsFragment ['^'] [] := .single .caret rfl trivial rfl rfl
  have stop : IsFragment ['$'] [] := .single .dollar rfl trivial rfl rfl
  have all := start.append (h.group.append stop)
  rw [List.append_assoc, List.nil_append, List.append_nil] at all
  exact all

/-- A letter y can be taken off the end of a fragment. -/
theorem of_append_y (h : IsFragment (t ++ ['y']) []) : IsFragment t [] := by
  obtain ⟨lexemes, c, cuts, run, names⟩ := h
  obtain ⟨others, rfl, front⟩ := cuts.of_append_y
  rw [List.foldlM_append] at run
  obtain ⟨⟨b, d⟩, first, last⟩ := Option.bind_eq_some_iff.1 run
  obtain ⟨-, rfl⟩ := Shape.mk.inj (Option.some.inj last)
  rw [List.filterMap_append, List.append_eq_nil_iff] at names
  exact ⟨others, b, front, first, names.1⟩

end IsFragment

/-! ## Expressions -/

/-- The expression of a pattern with the depth to which it is nested, whatever that is. -/
def read? (pattern : Text) (caseless : Bool) : Option (Regex × Nat) := do
  let lexemes ← lexemes? pattern
  let reader ← lexemes.foldlM Reader.step? { level := { flags := { caseless } } }
  if reader.outer.isEmpty then some reader.level.body else none

/-- The limit on nesting is all that keeps a pattern that can be read from being an expression. -/
theorem parse?_eq (pattern : Text) (caseless : Bool) :
    parse? pattern caseless = (read? pattern caseless).bind fun (r, depth) =>
      if depth ≤ Reader.maxDepth then some r else none := by
  simp only [parse?, read?, Option.bind_eq_bind, Option.bind_assoc]
  refine Option.bind_congr fun lexemes _ => Option.bind_congr fun reader _ => ?_
  rw [Reader.finish?]
  cases reader.outer.isEmpty <;> simp

/-- A fragment whose groups have different names can be read as an expression. -/
theorem IsFragment.read?_isSome {names : List Text} (h : IsFragment t names)
    (distinct : names.Nodup) (caseless : Bool) : (read? t caseless).isSome := by
  obtain ⟨lexemes, c, cuts, run, rfl⟩ := h
  have lexed : lexemes? t = some lexemes := cuts.lexemesFrom? (by simp)
  obtain ⟨reader, read, shape⟩ := Reader.exists_foldlM
    (a := { level := { flags := { caseless } } }) ⟨rfl, by simp⟩ cuts.keepsFlags run distinct
    (by simp)
  have closed : reader.outer.isEmpty = true := by
    simpa [Reader.shape] using congrArg Shape.depth shape
  rw [read?, lexed, Option.bind_eq_bind, Option.bind_some, read, Option.bind_eq_bind,
    Option.bind_some, if_pos closed]
  rfl

/-- A pattern of its own that changes no flags, names no groups and does not end in a
backslash. -/
structure IsPlain (t : Text) : Prop where
  valid : (parse? t).isSome
  keepsFlags : ∀ lexemes, lexemes? t = some lexemes → ∀ l ∈ lexemes, l.KeepsFlags
  noAngle : '<' ∉ t
  noFinalBackslash : t.getLast? ≠ some '\\'

instance (t : Text) : Decidable (IsPlain t) :=
  decidable_of_iff ((parse? t).isSome ∧ (∀ lexemes ∈ lexemes? t, ∀ l ∈ lexemes, l.KeepsFlags) ∧
      '<' ∉ t ∧ t.getLast? ≠ some '\\')
    ⟨fun ⟨valid, keeps, noAngle, last⟩ => ⟨valid, keeps, noAngle, last⟩,
      fun h => ⟨h.valid, h.keepsFlags, h.noAngle, h.noFinalBackslash⟩⟩

theorem IsPlain.isFragment (h : IsPlain t) : IsFragment t [] := by
  obtain ⟨r, parsed⟩ := Option.isSome_iff_exists.1 h.valid
  rw [parse?] at parsed
  obtain ⟨lexemes, lexed, parsed⟩ := Option.bind_eq_some_iff.1 parsed
  obtain ⟨reader, run, finished⟩ := Option.bind_eq_some_iff.1 parsed
  have keeps := h.keepsFlags lexemes lexed
  have cuts : Cuts t lexemes := cuts_of_lexemesFrom? (by simp) lexed keeps
  have shape := Reader.foldlM_eq_some ⟨rfl, by simp⟩ keeps run
  have closed : reader.outer = [] := by
    rw [Reader.finish?] at finished
    by_contra open_
    simp [open_] at finished
  refine ⟨lexemes, reader.level.countable, cuts, ?_, ?_⟩
  · have depth : reader.shape = ⟨reader.level.countable, 0⟩ := by
      rw [Reader.shape, closed]
      rfl
    exact shape.trans (congrArg some depth)
  · exact List.filterMap_eq_nil_iff.2 (cuts.name?_eq_none h.noAngle)

end RulesText.Regex
