import Mathlib.Data.List.Forall2
import RulesText.Proofs.Regex.Reading
import RulesText.Proofs.Results

/-!
# Reading with and without regard to case

A pattern without conditions and without flags matches the same texts wherever they stand. If
none of its classes leaves characters out, then all that it matches it also matches without regard
to case. The two expressions need not have the same form: what branches have in common can depend
on case.

## Main definitions

* `Regex.IsMonotone`: a pattern that can only match more without regard to case.
* `Regex.Widens`: what an expression matches anywhere, another one matches everywhere.

## Main statements

* `Regex.IsMonotone.widened`: the branches of such a pattern, read in both ways.
-/

namespace RulesText

namespace Cursor.Through

variable {c d e : Cursor} {s u : Text}

theorem unique (h : c.Through s d) (g : c.Through u d) : s = u :=
  List.append_cancel_right (h.ahead.symm.trans g.ahead)

theorem split (h : c.Through (s ++ u) e) : ∃ d, c.Through s d ∧ d.Through u e := by
  induction s generalizing c with
  | nil => exact ⟨c, .refl c, h⟩
  | cons x s ih =>
    obtain ⟨b, next, rest⟩ := h.cons
    obtain ⟨d, front, back⟩ := ih rest
    exact ⟨d, (Cursor.next?_eq_some_iff.1 next).trans front, back⟩

end Cursor.Through

namespace Regex

/-! ## Patterns -/

/-- Whether a lexeme is no condition, sets no flags and is no class that leaves characters out. -/
def Lexeme.isMonotone : Lexeme → Bool
  | set s => s.isMonotone
  | bracket item => item.set.isMonotone
  | caret | dollar | look _ | setFlags _ => false
  | openGroup change => change.isEmpty
  | _ => true

theorem Lexeme.keepsFlags_of_isMonotone {l : Lexeme} (monotone : l.isMonotone) : l.KeepsFlags := by
  cases l with
  | setFlags change => cases monotone
  | openGroup change => exact List.isEmpty_iff.1 monotone
  | _ => trivial

/-- A pattern of its own that has neither conditions nor flags nor classes that leave characters
out. -/
structure IsMonotone (t : Text) : Prop where
  valid : (parse? t).isSome
  monotone : ∀ lexemes ∈ lexemes? t, ∀ l ∈ lexemes, l.isMonotone

instance (t : Text) : Decidable (IsMonotone t) :=
  decidable_of_iff ((parse? t).isSome ∧ (lexemes? t).all (·.all Lexeme.isMonotone)) (by
    simp only [Option.all_eq_true, List.all_eq_true]
    exact ⟨fun h => ⟨h.1, h.2⟩, fun h => ⟨h.1, h.2⟩⟩)

/-! ## Expressions -/

/-- What the first expression matches anywhere, the second one matches wherever the same text
stands. -/
structure Widens (r s : Regex) : Prop where
  takesNothing : r.takesNothing = s.takesNothing
  matches_of : ∀ {u : Text} {c d c' d' : Cursor}, c.Through u d → c'.Through u d' →
    r.Matches c d → s.Matches c' d'

namespace Widens

variable {r s : Regex} {rs ss : List Regex}

theorem empty : Widens .empty .empty := by
  refine ⟨rfl, fun {u c d c' d'} through through' step => ?_⟩
  obtain rfl : d = c := step
  obtain rfl := through.unique (.refl d)
  exact through'.eq

theorem one {rule rule' : CaseRule} {set : CharSet}
    (wider : ∀ x, set.contains rule x → set.contains rule' x) :
    Widens (.one rule set) (.one rule' set) := by
  refine ⟨rfl, fun through through' step => ?_⟩
  obtain ⟨x, next, mem⟩ := step
  obtain rfl := through.unique (Cursor.next?_eq_some_iff.1 next)
  exact ⟨x, Cursor.next?_eq_some_iff.2 through', wider x mem⟩

theorem group (h : Widens r s) (name? name?' : Option Text) :
    Widens (.group name? r) (.group name?' s) :=
  ⟨h.takesNothing, h.matches_of⟩

theorem rounds (h : Widens r s) {n : Nat} {u : Text} {c d c' d' : Cursor}
    (through : c.Through u d) (through' : c'.Through u d') (step : Ends.Rounds r.Matches n c d) :
    Ends.Rounds s.Matches n c' d' := by
  induction n generalizing u c c' with
  | zero =>
    obtain rfl : d = c := step
    obtain rfl := through.unique (.refl d)
    exact through'.eq
  | succ n ih =>
    obtain ⟨e, first, rest⟩ := step
    obtain ⟨v, front⟩ := matches_forward r c e first
    obtain ⟨w, back⟩ := (matches_forward r).rounds e d rest
    obtain rfl := through.unique (front.trans back)
    obtain ⟨e', front', back'⟩ := through'.split
    exact ⟨e', h.matches_of front front' first, ih back back' rest⟩

theorem repetition (h : Widens r s) (least : Nat) (most : Option Nat) (greedy : Bool) :
    Widens (.repetition r least most greedy) (.repetition s least most greedy) := by
  refine ⟨h.takesNothing, fun through through' step => ?_⟩
  obtain ⟨n, le, bound, rounds⟩ := step
  exact ⟨n, le, bound, h.rounds through through' rounds⟩

theorem repeated (h : Widens r s) (least : Nat) (most : Option Nat) (greedy : Bool) :
    Widens (repeated r least most greedy) (repeated s least most greedy) := by
  unfold Regex.repeated
  rw [h.takesNothing]
  dsimp only
  split
  · split
    · exact empty
    · split
      · exact h
      · exact h.repetition ..
  · split
    · exact empty
    · split
      · exact h
      · exact h.repetition ..

theorem matchesAll (h : List.Forall₂ Widens rs ss) {u : Text} {c d c' d' : Cursor}
    (through : c.Through u d) (through' : c'.Through u d') (step : MatchesAll rs c d) :
    MatchesAll ss c' d' := by
  induction h generalizing u c c' with
  | nil =>
    obtain rfl : d = c := step
    obtain rfl := through.unique (.refl d)
    exact through'.eq
  | @cons r s rs ss first _ ih =>
    obtain ⟨e, own, rest⟩ := step
    obtain ⟨v, front⟩ := matches_forward r c e own
    obtain ⟨w, back⟩ := matches_forward (sequence rs) e d (matches_sequence rest)
    obtain rfl := through.unique (front.trans back)
    obtain ⟨e', front', back'⟩ := through'.split
    exact ⟨e', first.matches_of front front' own, ih back back' rest⟩

theorem all_takesNothing (h : List.Forall₂ Widens rs ss) :
    rs.all Regex.takesNothing = ss.all Regex.takesNothing := by
  induction h with
  | nil => rfl
  | cons first _ ih => rw [List.all_cons, List.all_cons, first.takesNothing, ih]

theorem branchOf (h : List.Forall₂ Widens rs ss) : Widens (branchOf rs) (branchOf ss) where
  takesNothing := by
    rw [distributes_takesNothing.branchOf, distributes_takesNothing.branchOf, all_takesNothing h]
  matches_of through through' step :=
    matches_branchOf.2 (matchesAll h through through' (matches_branchOf.1 step))

theorem oneOf (h : List.Forall₂ Widens rs ss) : Widens (oneOf rs) (oneOf ss) where
  takesNothing := by
    rw [distributes_takesNothing.oneOf, distributes_takesNothing.oneOf, all_takesNothing h]
  matches_of through through' step := by
    cases h with
    | nil => exact empty.matches_of through through' step
    | cons first rest =>
      obtain ⟨r, mem, step⟩ := (matches_oneOf (by simp)).1 step
      obtain ⟨s, mem, wider⟩ := exists_of_forall₂ (.cons first rest) mem
      exact (matches_oneOf (by simp)).2 ⟨s, mem, wider.matches_of through through' step⟩

end Widens

/-! ## Readers -/

/-- Two parts with expressions, the second of which is wider. -/
def Part.Widens (p q : Part) : Prop :=
  ∃ r s, p.regex? = some r ∧ q.regex? = some s ∧ Regex.Widens r s

/-- Two levels, the second of which is read without regard to case and is wider. -/
structure Level.Widens (l k : Level) : Prop where
  flags : l.flags = initialFlags false
  caseless : k.flags = initialFlags true
  branches : List.Forall₂ (fun b c => Regex.Widens b.1 c.1) l.branches k.branches
  parts : List.Forall₂ Part.Widens l.parts k.parts

namespace Level.Widens

variable {l k : Level} (h : l.Widens k)

include h

theorem done : List.Forall₂ Regex.Widens l.done k.done := by
  rw [Level.done, Level.done, List.forall₂_reverse_iff, List.forall₂_map_left_iff,
    List.forall₂_map_right_iff]
  exact h.branches

theorem exprs : List.Forall₂ Regex.Widens l.exprs k.exprs := by
  have all := List.forall₂_reverse_iff.2 h.parts
  rw [Level.exprs, Level.exprs]
  generalize l.parts.reverse = ps at all
  generalize k.parts.reverse = qs at all
  induction all with
  | nil => exact .nil
  | cons first _ ih =>
    obtain ⟨r, s, eq, eq', wider⟩ := first
    rw [List.filterMap_cons_some eq, List.filterMap_cons_some eq']
    exact .cons wider ih

theorem body : Regex.Widens l.body.1 k.body.1 := by
  rw [Level.body_fst, Level.body_fst]
  exact .oneOf (List.rel_append h.done (.cons (.branchOf h.exprs) .nil))

theorem add {r s : Regex} (wider : Regex.Widens r s) (depth depth' : Nat) :
    (l.add r depth).Widens (k.add s depth') :=
  ⟨h.flags, h.caseless, h.branches, .cons ⟨r, s, rfl, rfl, wider⟩ h.parts⟩

end Level.Widens

namespace Reader

variable {a a' b : Reader} {lexeme : Lexeme} {lexemes : List Lexeme}

/-- Two readers, the second of which reads without regard to case and has wider levels. -/
structure Widens (a b : Reader) : Prop where
  level : a.level.Widens b.level
  outer : List.Forall₂ (fun f g => (∀ {r s}, Regex.Widens r s → Regex.Widens (f.1 r) (g.1 s)) ∧
    f.2.Widens g.2) a.outer b.outer
  names : a.names = b.names

theorem Widens.add (h : a.Widens b) {r s : Regex} (wider : Regex.Widens r s)
    (depth depth' : Nat) : (a.add r depth).Widens (b.add s depth') :=
  ⟨h.level.add wider depth depth', h.outer, h.names⟩

theorem Widens.openGroup (h : a.Widens b) {wrap : Regex → Regex} {names names' : List Text}
    (wider : ∀ {r s}, Regex.Widens r s → Regex.Widens (wrap r) (wrap s)) (same : names = names') :
    Widens { a.openGroup a.flags wrap with names }
      { b.openGroup b.flags wrap with names := names' } :=
  ⟨⟨h.level.flags, h.level.caseless, .nil, .nil⟩, .cons ⟨wider, h.level⟩ h.outer, same⟩

/-- What a monotone lexeme stands for is wider without regard to case. -/
theorem exists_expr?_caseless {r : Regex} (monotone : lexeme.isMonotone)
    (expr : (initialFlags false).expr? lexeme = some r) :
    ∃ s, (initialFlags true).expr? lexeme = some s ∧ Regex.Widens r s := by
  have wider (set : CharSet) (monotone : set.isMonotone) :
      Regex.Widens (.one .exact set) (.one (.variants .unicode) set) :=
    .one fun x mem => CharSet.contains_of_isMonotone monotone mem _
  cases lexeme with
  | char c | byte c =>
    obtain rfl := Option.some.inj expr
    exact ⟨_, rfl, wider (.single c) rfl⟩
  | set set | bracket item =>
    obtain rfl := Option.some.inj expr
    exact ⟨_, rfl, wider _ monotone⟩
  | dot =>
    obtain rfl := Option.some.inj expr
    exact ⟨_, rfl, .one fun x mem => mem⟩
  | caret | dollar | look condition => cases monotone
  | _ => cases expr

theorem Widens.exists_count (h : a.Widens b) {least : Nat} {most : Option Nat} {lazy : Bool}
    {r : Regex} {depth : Nat} {parts : List Part}
    (latest : a.level.parts = ⟨some r, depth⟩ :: parts) :
    ∃ b', b.step? (.count least most lazy) = some b' ∧
      Widens { a with level := { a.level with parts :=
        ⟨some (repeated r least most (lazy == a.level.flags.swapGreed)), depth + 1⟩ :: parts } }
        b' := by
  have all := h.level.parts
  rw [latest] at all
  obtain ⟨⟨other, depth'⟩, parts', ⟨r', s, same, eq, wider⟩, rest, latest'⟩ :=
    List.forall₂_cons_left_iff.1 all
  obtain rfl := Option.some.inj same
  obtain rfl : other = some s := eq
  refine ⟨_, (Steps.count latest').step?_eq, ⟨h.level.flags, h.level.caseless, h.level.branches,
    .cons ⟨_, _, rfl, rfl, ?_⟩ rest⟩, h.outer, h.names⟩
  have greed : a.level.flags.swapGreed = b.level.flags.swapGreed := by
    rw [h.level.flags, h.level.caseless]
  exact greed ▸ wider.repeated ..

/-- What can be read is also read without regard to case, and remains wider. -/
theorem Widens.exists_step? (h : a.Widens b) (monotone : lexeme.isMonotone)
    (step : a.step? lexeme = some a') : ∃ b', b.step? lexeme = some b' ∧ a'.Widens b' := by
  cases steps_of_step? step with
  | add expr =>
    rw [flags, h.level.flags] at expr
    obtain ⟨s, expr', wider⟩ := exists_expr?_caseless monotone expr
    rw [← h.level.caseless] at expr'
    exact ⟨_, step?_of_expr? expr', h.add wider _ _⟩
  | count latest => exact h.exists_count latest
  | branch =>
    exact ⟨_, rfl, ⟨h.level.flags, h.level.caseless, .cons (.branchOf h.level.exprs)
      h.level.branches, .nil⟩, h.outer, h.names⟩
  | @openCapture name? new =>
    rw [h.names] at new
    exact ⟨_, (Steps.openCapture new).step?_eq, h.openGroup (·.group name? name?) (by rw [h.names])⟩
  | @openGroup change =>
    obtain rfl : change = [] := List.isEmpty_iff.1 monotone
    exact ⟨_, rfl, h.openGroup id h.names⟩
  | setFlags => cases monotone
  | close closes =>
    have all := h.outer
    rw [closes] at all
    obtain ⟨frame, frames, ⟨wrap, around⟩, rest, closes'⟩ := List.forall₂_cons_left_iff.1 all
    exact ⟨_, (Steps.close closes').step?_eq, around.add (wrap h.level.body) _ _, rest, h.names⟩

theorem Widens.exists_foldlM (h : a.Widens b) (monotone : ∀ l ∈ lexemes, l.isMonotone)
    (run : lexemes.foldlM step? a = some a') :
    ∃ b', lexemes.foldlM step? b = some b' ∧ a'.Widens b' := by
  induction lexemes generalizing a b with
  | nil =>
    obtain rfl := Option.some.inj run
    exact ⟨b, rfl, h⟩
  | cons lexeme lexemes ih =>
    obtain ⟨own, monotone⟩ := List.forall_mem_cons.1 monotone
    rw [List.foldlM_cons] at run
    obtain ⟨c, first, run⟩ := Option.bind_eq_some_iff.1 run
    obtain ⟨d, step, wider⟩ := h.exists_step? own first
    obtain ⟨b', rest, wider⟩ := ih wider monotone run
    exact ⟨b', by rw [List.foldlM_cons, step]; exact rest, wider⟩

end Reader

/-! ## Both ways to read -/

/-- The branches of a text, read with regard to case and without. -/
def Widened (t : Text) : Prop :=
  ∃ bs bs', HasBranches false t bs ∧ HasBranches true t bs' ∧ List.Forall₂ Widens bs bs'

/-- The branches before the last one, and the expressions of that one, read in both ways. -/
def WidenedParts (t : Text) : Prop :=
  ∃ bs rs bs' rs', ReadsBranches false t bs rs ∧ ReadsBranches true t bs' rs' ∧
    List.Forall₂ Widens bs bs' ∧ List.Forall₂ Widens rs rs'

variable {t s : Text}

theorem WidenedParts.widened (h : WidenedParts t) : Widened t := by
  obtain ⟨bs, rs, bs', rs', exact_, caseless, done, exprs⟩ := h
  exact ⟨_, _, ⟨bs, rs, exact_, rfl⟩, ⟨bs', rs', caseless, rfl⟩,
    List.rel_append done (.cons (.branchOf exprs) .nil)⟩

/-- What a run reads with regard to case, another one reads without. -/
theorem widenedParts_of_foldlM {lexemes : List Lexeme} {reader : Reader} (cuts : Cuts t lexemes)
    (monotone : ∀ l ∈ lexemes, l.isMonotone)
    (run : lexemes.foldlM Reader.step? { level := { flags := {} } } = some reader)
    (closed : reader.outer = []) : WidenedParts t := by
  have start : Reader.Widens { level := { flags := initialFlags false } }
      { level := { flags := initialFlags true } } :=
    ⟨⟨rfl, rfl, .nil, .nil⟩, .nil, rfl⟩
  obtain ⟨other, run', wider⟩ := start.exists_foldlM monotone run
  have closed' : other.outer = [] := by
    have all := wider.outer
    rw [closed] at all
    exact List.forall₂_nil_left_iff.1 all
  exact ⟨_, _, _, _, readsBranches_of_foldlM cuts run closed,
    readsBranches_of_foldlM cuts run' closed', wider.level.done, wider.level.exprs⟩

/-- The lexemes of a monotone pattern and the run that reads them. -/
theorem IsMonotone.exists_run (h : IsMonotone t) : ∃ lexemes reader, Cuts t lexemes ∧
    (∀ l ∈ lexemes, l.isMonotone) ∧
    lexemes.foldlM Reader.step? { level := { flags := {} } } = some reader ∧ reader.outer = [] := by
  obtain ⟨r, parsed⟩ := Option.isSome_iff_exists.1 h.valid
  obtain ⟨lexemes, reader, lexed, run, closed, -⟩ := exists_of_parse? parsed
  have monotone := h.monotone lexemes lexed
  exact ⟨lexemes, reader, cuts_of_lexemesFrom? (by simp) lexed fun l mem =>
    Lexeme.keepsFlags_of_isMonotone (monotone l mem), monotone, run, closed⟩

theorem IsMonotone.widenedParts (h : IsMonotone t) : WidenedParts t := by
  obtain ⟨lexemes, reader, cuts, monotone, run, closed⟩ := h.exists_run
  exact widenedParts_of_foldlM cuts monotone run closed

/-- A letter y can be taken off the end. -/
theorem IsMonotone.widenedParts_of_append_y (h : IsMonotone (t ++ ['y'])) : WidenedParts t := by
  obtain ⟨lexemes, reader, cuts, monotone, run, closed⟩ := h.exists_run
  obtain ⟨others, rfl, front⟩ := cuts.of_append_y
  rw [List.foldlM_append] at run
  obtain ⟨before, first, last⟩ := Option.bind_eq_some_iff.1 run
  obtain rfl := Option.some.inj last
  exact widenedParts_of_foldlM front (fun l mem => monotone l (List.mem_append_left _ mem)) first
    closed

/-- What stands behind belongs to the last branch. -/
theorem WidenedParts.append (h : WidenedParts t) {r r' : Regex} (reads : Reads false s [r])
    (reads' : Reads true s [r']) (wider : Widens r r') (stands : Stands s) :
    WidenedParts (t ++ s) := by
  obtain ⟨bs, rs, bs', rs', exact_, caseless, done, exprs⟩ := h
  exact ⟨_, _, _, _, exact_.append reads stands, caseless.append reads' stands, done,
    List.rel_append exprs (.cons wider .nil)⟩

end Regex

end RulesText
