import RulesText.Proofs.Regex.Composition
import RulesText.Proofs.Regex.Fragments

/-!
# How pattern texts are read in context

What a piece of pattern text adds to an expression depends on the flags in force only, not on the
groups around it or on what stands in front of it. So the expression of a text that is put
together from pieces is put together from their expressions in the same way. Nothing is said
about whether the whole text can be read: a group name may have been used before.

## Main definitions

* `Regex.Reads`: the expressions with which a text goes on.
* `Regex.HasBranches`: the branches of a text that is read from the start of a branch.

## Main statements

* `Regex.readsBranches_of_foldlM`: a pattern of its own has the same branches everywhere.
* `Regex.HasBranches.anchored`: the expression of a pattern that must match a whole text.
-/

namespace RulesText.Regex

variable {s t name : Text} {rs rs' bs bs' : List Regex} {caseless : Bool}
  {opening : Lexeme} {others : List Lexeme}

/-! ## Levels -/

namespace Level

/-- The expressions of the current branch. -/
def exprs (l : Level) : List Regex :=
  l.parts.reverse.filterMap (·.regex?)

/-- The branches before the current one. -/
def done (l : Level) : List Regex :=
  (l.branches.map (·.1)).reverse

@[simp] theorem exprs_add (l : Level) (r : Regex) (depth : Nat) :
    (l.add r depth).exprs = l.exprs ++ [r] := by
  simp [exprs, add]

@[simp] theorem exprs_of_nil {l : Level} (h : l.parts = []) : l.exprs = [] := by
  simp [exprs, h]

@[simp] theorem done_endBranch (l : Level) : l.endBranch.done = l.done ++ [branchOf l.exprs] := by
  simp [done, endBranch, branch, exprs, branchOf]

theorem body_fst (l : Level) : l.body.1 = oneOf (l.done ++ [branchOf l.exprs]) := by
  have all : (l.branch :: l.branches).reverse.map (·.1) = l.done ++ [branchOf l.exprs] := by
    simp [done, branch, exprs, branchOf]
  rw [body, all]
  cases l.done <;> rfl

theorem count?_add {l l' : Level} {r : Regex} {depth least : Nat} {most : Option Nat} {lazy : Bool}
    (h : (l.add r depth).count? least most lazy = some l') :
    l' = l.add (repeated r least most (lazy == l.flags.swapGreed)) (depth + 1) :=
  (Option.some.inj h).symm

end Level

/-! ## Going on in a branch -/

/-- The run that reads a pattern. -/
theorem exists_of_parse? {r : Regex} (h : parse? t caseless = some r) :
    ∃ lexemes reader, lexemes? t = some lexemes ∧
      lexemes.foldlM Reader.step? { level := { flags := { caseless } } } = some reader ∧
      reader.outer = [] ∧ r = reader.level.body.1 := by
  rw [parse?] at h
  obtain ⟨lexemes, lexed, h⟩ := Option.bind_eq_some_iff.1 h
  obtain ⟨reader, run, h⟩ := Option.bind_eq_some_iff.1 h
  simp only [Reader.finish?] at h
  split at h
  · rename_i finished
    simp only [Bool.and_eq_true, List.isEmpty_iff] at finished
    exact ⟨lexemes, reader, lexed, run, finished.1, (Option.some.inj h).symm⟩
  · cases h

/-- The flags of a pattern that does not change them. -/
abbrev initialFlags (caseless : Bool) : Flags := { caseless }

namespace Reader

variable {a b c : Reader}

/-- The current branch goes on with the expressions; all else stays. -/
structure Continues (a : Reader) (rs : List Regex) (b : Reader) : Prop where
  outer : b.outer = a.outer
  flags : b.level.flags = a.level.flags
  branches : b.level.branches = a.level.branches
  exprs : b.level.exprs = a.level.exprs ++ rs

theorem Continues.trans (h : a.Continues rs b) (h' : b.Continues rs' c) :
    a.Continues (rs ++ rs') c where
  outer := h'.outer.trans h.outer
  flags := h'.flags.trans h.flags
  branches := h'.branches.trans h.branches
  exprs := by rw [h'.exprs, h.exprs, List.append_assoc]

theorem continues_add (a : Reader) (r : Regex) (depth : Nat) : a.Continues [r] (a.add r depth) :=
  ⟨rfl, rfl, rfl, a.level.exprs_add r depth⟩

/-- From the start of a branch more branches were read, and the expressions of the last one. -/
structure Branches (a : Reader) (bs rs : List Regex) (b : Reader) : Prop where
  outer : b.outer = a.outer
  flags : b.level.flags = a.level.flags
  done : b.level.done = a.level.done ++ bs
  exprs : b.level.exprs = rs

end Reader

/-- Where the text stands, the branch goes on with the expressions. -/
def Reads (caseless : Bool) (t : Text) (rs : List Regex) : Prop :=
  ∃ lexemes, Cuts t lexemes ∧ ∀ a b : Reader, a.level.flags = initialFlags caseless →
    lexemes.foldlM Reader.step? a = some b → a.Continues rs b

/-- Where a branch begins with the text, it has the branches, the last one with the
expressions. -/
def ReadsBranches (caseless : Bool) (t : Text) (bs rs : List Regex) : Prop :=
  ∃ lexemes, Cuts t lexemes ∧ ∀ a b : Reader, a.level.flags = initialFlags caseless →
    a.level.parts = [] → lexemes.foldlM Reader.step? a = some b → a.Branches bs rs b

/-- The branches of a text that is read from the start of a branch. -/
def HasBranches (caseless : Bool) (t : Text) (bs : List Regex) : Prop :=
  ∃ front rs, ReadsBranches caseless t front rs ∧ bs = front ++ [branchOf rs]

namespace Reads

theorem nil : Reads caseless [] [] := by
  refine ⟨[], .nil, fun a b _ run => ?_⟩
  obtain rfl := Option.some.inj run
  exact ⟨rfl, rfl, rfl, by simp⟩

theorem append (h : Reads caseless s rs) (h' : Reads caseless t rs') (stands : Stands t) :
    Reads caseless (s ++ t) (rs ++ rs') := by
  obtain ⟨lexemes, cuts, reads⟩ := h
  obtain ⟨others, cuts', reads'⟩ := h'
  refine ⟨lexemes ++ others, cuts.append cuts' stands, fun a c flags run => ?_⟩
  rw [List.foldlM_append] at run
  obtain ⟨b, first, second⟩ := Option.bind_eq_some_iff.1 run
  have front := reads a b flags first
  exact front.trans (reads' b c (front.flags.trans flags) second)

/-- A text of one lexeme. -/
theorem lexeme {l : Lexeme} {r : Regex} (read : readLexeme? false t = some (l, []))
    (keeps : l.KeepsFlags)
    (step : ∀ a : Reader, a.level.flags = initialFlags caseless →
      a.step? l = some (a.add r)) : Reads caseless t [r] := by
  refine ⟨[l], .cons read keeps .nil, fun a b flags run => ?_⟩
  rw [List.foldlM_cons, step a flags] at run
  obtain rfl := Option.some.inj run
  exact a.continues_add r 0

/-- A character that stands for itself. -/
theorem char {c : Char} (plain : readLexeme? false [c] = some (.char c, [])) :
    Reads caseless [c] [(initialFlags caseless).char c] :=
  lexeme plain trivial fun a flags => by rw [Reader.step?, Reader.flags, flags]

theorem wordBoundary : Reads caseless "\\b" [look .wordBoundary] :=
  lexeme (l := .look .wordBoundary) rfl trivial fun a flags => by
    rw [Reader.step?, Reader.flags, flags]
    rfl

theorem textStart : Reads caseless "^" [look .textStart] :=
  lexeme (l := .caret) rfl trivial fun a flags => by
    rw [Reader.step?, Reader.flags, flags]
    rfl

theorem textEnd : Reads caseless "$" [look .textEnd] :=
  lexeme (l := .dollar) rfl trivial fun a flags => by
    rw [Reader.step?, Reader.flags, flags]
    rfl

theorem branch (h : Reads caseless t rs) : ReadsBranches caseless t [] rs := by
  obtain ⟨lexemes, cuts, reads⟩ := h
  refine ⟨lexemes, cuts, fun a b flags fresh run => ?_⟩
  obtain ⟨outer, flags, branches, exprs⟩ := reads a b flags run
  refine ⟨outer, flags, ?_, by rw [exprs, Level.exprs_of_nil fresh, List.nil_append]⟩
  rw [Level.done, branches, Level.done, List.append_nil]

theorem hasBranches (h : Reads caseless t rs) : HasBranches caseless t [branchOf rs] :=
  ⟨[], rs, h.branch, rfl⟩

end Reads

/-! ## Branches and groups -/

namespace ReadsBranches

/-- What follows belongs to the last branch. -/
theorem append (h : ReadsBranches caseless s bs rs) (h' : Reads caseless t rs')
    (stands : Stands t) : ReadsBranches caseless (s ++ t) bs (rs ++ rs') := by
  obtain ⟨lexemes, cuts, reads⟩ := h
  obtain ⟨others, cuts', reads'⟩ := h'
  refine ⟨lexemes ++ others, cuts.append cuts' stands, fun a c flags fresh run => ?_⟩
  rw [List.foldlM_append] at run
  obtain ⟨b, first, second⟩ := Option.bind_eq_some_iff.1 run
  have front := reads a b flags fresh first
  have back := reads' b c (front.flags.trans flags) second
  refine ⟨back.outer.trans front.outer, back.flags.trans front.flags, ?_, ?_⟩
  · rw [Level.done, back.branches]
    exact front.done
  · rw [back.exprs, front.exprs]

end ReadsBranches

namespace HasBranches

theorem or (h : HasBranches caseless s bs) (h' : HasBranches caseless t bs') :
    HasBranches caseless (s ++ '|' :: t) (bs ++ bs') := by
  obtain ⟨front, rs, ⟨lexemes, cuts, reads⟩, rfl⟩ := h
  obtain ⟨front', rs', ⟨others, cuts', reads'⟩, rfl⟩ := h'
  refine ⟨front ++ branchOf rs :: front', rs', ⟨lexemes ++ .branch :: others,
    cuts.append (.cons rfl trivial cuts') ⟨by simp, by simp⟩, fun a c flags fresh run => ?_⟩,
    by simp⟩
  rw [List.foldlM_append] at run
  obtain ⟨b, first, second⟩ := Option.bind_eq_some_iff.1 run
  rw [List.foldlM_cons] at second
  have front := reads a b flags fresh first
  have back := reads' { b with level := b.level.endBranch } c (front.flags.trans flags) rfl second
  refine ⟨back.outer.trans front.outer, back.flags.trans front.flags, ?_, back.exprs⟩
  rw [back.done, Level.done_endBranch, front.done, front.exprs]
  simp

/-- Several texts with bars between them have the branches of all of them. -/
theorem join_map {α : Type} {l : List α} (text : α → Text) {branches : α → List Regex}
    (nonempty : l ≠ []) (all : ∀ a ∈ l, HasBranches caseless (text a) (branches a)) :
    HasBranches caseless (Text.join ['|'] (l.map text)) (l.flatMap branches) := by
  induction l with
  | nil => exact absurd rfl nonempty
  | cons a l ih =>
    obtain ⟨own, others⟩ := List.forall_mem_cons.1 all
    cases l with
    | nil => simpa [Text.join] using own
    | cons b l =>
      have joined : Text.join ['|'] ((a :: b :: l).map text) =
          text a ++ '|' :: Text.join ['|'] ((b :: l).map text) := by
        simp [Text.join, List.intercalate]
      rw [joined, List.flatMap_cons]
      exact own.or (ih (by simp) others)

theorem join {texts : List Text} {branches : Text → List Regex} (nonempty : texts ≠ [])
    (all : ∀ t ∈ texts, HasBranches caseless t (branches t)) :
    HasBranches caseless (Text.join ['|'] texts) (texts.flatMap branches) := by
  have joined := join_map (fun t => t) nonempty all
  rwa [List.map_id'] at joined

/-- Between the start of a group and its end. -/
theorem enclose {w closing : Text} {f : Regex → Regex} {r : Regex}
    (h : HasBranches caseless t bs)
    (opens : ∀ u, readLexeme? false (w ++ u) = some (opening, u)) (keeps : opening.KeepsFlags)
    (deeper : ∀ a b : Reader, a.step? opening = some b →
      b.level = { flags := a.level.flags } ∧ b.outer = (f, a.level) :: a.outer)
    (closes : Cuts closing others) (stands : Stands closing)
    (back : ∀ a b c : Reader, a.level.flags = initialFlags caseless →
      b.outer = (f, a.level) :: a.outer → b.level.body.1 = oneOf bs →
      others.foldlM Reader.step? b = some c → a.Continues [r] c) :
    Reads caseless (w ++ t ++ closing) [r] := by
  obtain ⟨front, rs, ⟨lexemes, cuts, reads⟩, rfl⟩ := h
  refine ⟨opening :: (lexemes ++ others), ?_, fun a c flags run => ?_⟩
  · rw [List.append_assoc]
    exact .cons (opens _) keeps (cuts.append closes stands)
  · rw [List.foldlM_cons] at run
    obtain ⟨a', first, run⟩ := Option.bind_eq_some_iff.1 run
    rw [List.foldlM_append] at run
    obtain ⟨b, second, last⟩ := Option.bind_eq_some_iff.1 run
    obtain ⟨level, outer⟩ := deeper a a' first
    obtain ⟨outer', -, done, exprs⟩ :=
      reads a' b (by rw [level]; exact flags) (by rw [level]) second
    refine back a b c flags (outer'.trans outer) ?_ last
    rw [Level.body_fst, done, exprs, level]
    rfl

/-- A group that ends right after the text. -/
theorem continues_close {a b c : Reader} {wrap : Regex → Regex}
    (outer : b.outer = (wrap, a.level) :: a.outer)
    (run : [Lexeme.close].foldlM Reader.step? b = some c) :
    a.Continues [wrap b.level.body.1] c := by
  rw [List.foldlM_cons] at run
  obtain ⟨c', step, last⟩ := Option.bind_eq_some_iff.1 run
  obtain rfl := Option.some.inj last
  simp only [Reader.step?, outer] at step
  obtain rfl := Option.some.inj step
  exact ⟨rfl, rfl, rfl, Level.exprs_add ..⟩

theorem group (h : HasBranches caseless t bs) :
    Reads caseless ("(?:" ++ t ++ ")") [oneOf bs] := by
  refine h.enclose (f := id) IsFragment.opens_group rfl (fun a b step => ?_)
    IsFragment.cuts_close ⟨by decide, by decide⟩ fun a b c _ outer body run => ?_
  · obtain rfl := Option.some.inj step
    exact ⟨rfl, rfl⟩
  · exact body ▸ continues_close outer run

theorem optional (h : HasBranches caseless t bs) :
    Reads caseless ("(?:" ++ t ++ ")?")
      [repeated (oneOf bs) 0 (some 1) true] := by
  refine h.enclose (f := id) IsFragment.opens_group rfl (fun a b step => ?_)
    IsFragment.cuts_optional ⟨by decide, by decide⟩ fun a b c flags outer body run => ?_
  · obtain rfl := Option.some.inj step
    exact ⟨rfl, rfl⟩
  · rw [List.foldlM_cons] at run
    obtain ⟨c', step, last⟩ := Option.bind_eq_some_iff.1 run
    simp only [Reader.step?, outer] at step
    obtain rfl := Option.some.inj step
    rw [List.foldlM_cons] at last
    obtain ⟨c', counted, last⟩ := Option.bind_eq_some_iff.1 last
    obtain rfl := Option.some.inj last
    rw [Reader.step?] at counted
    obtain ⟨level, again, rfl⟩ := Option.map_eq_some_iff.1 counted
    obtain rfl := Level.count?_add again
    refine ⟨rfl, rfl, rfl, ?_⟩
    rw [Level.exprs_add, id, body, flags]
    rfl

/-- A named group around the text. -/
theorem named (h : HasBranches caseless t bs)
    (valid : readGroupName? (name ++ ['>']) = some (name, [])) :
    Reads caseless ("(?P<" ++ name ++ ['>'] ++ t ++ ")")
      [.group (some name) (oneOf bs)] := by
  refine h.enclose (f := Regex.group (some name)) (IsFragment.opens_named valid) trivial
    (fun a b step => ?_) IsFragment.cuts_close ⟨by decide, by decide⟩
    fun a b c _ outer body run => ?_
  · rw [Reader.step?] at step
    split at step
    · cases step
    · obtain rfl := Option.some.inj step
      exact ⟨rfl, rfl⟩
  · exact body ▸ continues_close outer run

/-! ## Expressions -/

theorem parse? (h : HasBranches caseless t bs) {r : Regex}
    (parsed : Regex.parse? t caseless = some r) : r = oneOf bs := by
  obtain ⟨front, rs, ⟨lexemes, cuts, reads⟩, rfl⟩ := h
  obtain ⟨others, reader, lexed, run, -, rfl⟩ := exists_of_parse? parsed
  obtain rfl := Option.some.inj (lexed.symm.trans (cuts.lexemesFrom? (by simp)))
  have read := reads _ reader rfl rfl run
  rw [Level.body_fst, read.done, read.exprs]
  rfl

/-- The expression of a pattern that must match a whole text. -/
theorem anchored (h : HasBranches caseless t bs) {r : Regex}
    (parsed : Regex.parse? (Regex.anchored t) caseless = some r) :
    r = (oneOf bs).whole := by
  have reads := (Reads.textStart.append h.group ⟨by simp, by simp⟩).append
    Reads.textEnd ⟨by decide, by decide⟩
  have text : (("^" : Text) ++ ("(?:" ++ t ++ ")") ++ ("$" : Text)) = Regex.anchored t := by
    simp [Regex.anchored]
  rw [text] at reads
  rw [reads.hasBranches.parse? parsed, oneOf_singleton]
  simp [branchOf, whole, items]

end HasBranches

/-! ## Flags in force -/

namespace Reader

variable {a b : Reader} {flags : Flags}

/-- The flags are in force in all groups that are open. -/
structure HasFlags (flags : Flags) (s : Reader) : Prop where
  here : s.level.flags = flags
  around : ∀ frame ∈ s.outer, frame.2.flags = flags

theorem HasFlags.step? {lexeme : Lexeme} (h : a.HasFlags flags) (keeps : lexeme.KeepsFlags)
    (step : a.step? lexeme = some b) : b.HasFlags flags := by
  have opened (wrap : Regex → Regex) (names : List Text) :
      HasFlags flags { a.openGroup a.flags wrap with names } :=
    ⟨h.here, List.forall_mem_cons.2 ⟨h.here, h.around⟩⟩
  cases steps_of_step? step with
  | add | count | branch => exact ⟨h.here, h.around⟩
  | openCapture => exact opened _ _
  | @openGroup change =>
    obtain rfl : change = [] := keeps
    exact opened _ _
  | setFlags => cases keeps
  | close closes =>
    obtain ⟨around, frames⟩ := List.forall_mem_cons.1 (closes ▸ h.around)
    exact ⟨around, frames⟩

/-- What every step keeps is kept by a run. -/
theorem of_foldlM {P : Reader → Prop} {lexemes : List Lexeme}
    (keeps : ∀ l ∈ lexemes, ∀ {a b : Reader}, P a → a.step? l = some b → P b) (h : P a)
    (run : lexemes.foldlM Reader.step? a = some b) : P b := by
  induction lexemes generalizing a with
  | nil =>
    obtain rfl := Option.some.inj run
    exact h
  | cons lexeme lexemes ih =>
    rw [List.foldlM_cons] at run
    obtain ⟨c, first, run⟩ := Option.bind_eq_some_iff.1 run
    obtain ⟨own, keeps⟩ := List.forall_mem_cons.1 keeps
    exact ih keeps (own h first) run

theorem HasFlags.foldlM {lexemes : List Lexeme} (h : a.HasFlags flags)
    (keeps : ∀ l ∈ lexemes, l.KeepsFlags) (run : lexemes.foldlM Reader.step? a = some b) :
    b.HasFlags flags :=
  of_foldlM (fun l mem _ _ h step => h.step? (keeps l mem) step) h run

end Reader

/-! ## Patterns of their own -/

/-- A group that is open, with what becomes of it inside the level around it. -/
abbrev Frame := (Regex → Regex) × Level

/-- The levels of a reader on top of others: its outermost level stands behind some branches. -/
def Level.onto (before : List (Regex × Nat)) (base : List Frame) :
    Level → List Frame → Level × List Frame
  | l, [] => ({ l with branches := l.branches ++ before }, base)
  | l, (wrap, around) :: frames => (l, (wrap, (onto before base around frames).1) ::
      (onto before base around frames).2)

section

variable {before : List (Regex × Nat)} {base frames : List Frame} {l : Level}

/-- A change that is the same behind other branches is the same on top of other levels. -/
theorem Level.onto_change {f : Level → Level} (same : ∀ l : Level,
      f { l with branches := l.branches ++ before } =
        { f l with branches := (f l).branches ++ before }) :
    onto before base (f l) frames =
      (f (onto before base l frames).1, (onto before base l frames).2) := by
  cases frames with
  | nil => exact Prod.ext (same l).symm rfl
  | cons frame frames => rfl

theorem Level.flags_onto : (onto before base l frames).1.flags = l.flags := by
  cases frames <;> rfl

theorem Level.parts_onto : (onto before base l frames).1.parts = l.parts := by
  cases frames <;> rfl

end

namespace Reader

variable {a a' b b' : Reader} {before : List (Regex × Nat)} {base : List Frame}

/-- The second reader is the first one on top of other levels, whatever names were used. -/
def LiesOn (before : List (Regex × Nat)) (base : List Frame) (a b : Reader) : Prop :=
  (b.level, b.outer) = Level.onto before base a.level a.outer

theorem LiesOn.level (h : LiesOn before base a b) :
    b.level = (Level.onto before base a.level a.outer).1 :=
  congrArg Prod.fst h

theorem LiesOn.flags (h : LiesOn before base a b) : b.flags = a.flags := by
  rw [Reader.flags, h.level, Level.flags_onto, Reader.flags]

theorem LiesOn.change {f : Level → Level} (h : LiesOn before base a b)
    (same : ∀ l : Level, f { l with branches := l.branches ++ before } =
      { f l with branches := (f l).branches ++ before }) (names names' : List Text) :
    LiesOn before base ⟨f a.level, a.outer, names⟩ ⟨f b.level, b.outer, names'⟩ := by
  rw [LiesOn, Level.onto_change same, ← h]

theorem LiesOn.add (h : LiesOn before base a b) (r : Regex) (depth : Nat) :
    LiesOn before base (a.add r depth) (b.add r depth) :=
  h.change (f := (·.add r depth)) (fun _ => rfl) _ _

theorem LiesOn.openGroup (h : LiesOn before base a b) (wrap : Regex → Regex)
    (names names' : List Text) :
    LiesOn before base { a.openGroup a.flags wrap with names }
      { b.openGroup b.flags wrap with names := names' } := by
  change (({ flags := b.flags } : Level), (wrap, b.level) :: b.outer) =
    (({ flags := a.flags } : Level), _)
  rw [h.flags, ← h]

/-- A lexeme does the same on top of other levels, if it stays above them. -/
theorem LiesOn.step? {lexeme : Lexeme} (h : LiesOn before base a b) (keeps : lexeme.KeepsFlags)
    (alone : a.step? lexeme = some a') (inside : b.step? lexeme = some b') :
    LiesOn before base a' b' := by
  cases steps_of_step? alone with
  | add expr =>
    rw [← h.flags] at expr
    obtain rfl := Option.some.inj ((step?_of_expr? expr).symm.trans inside)
    exact h.add _ _
  | @count least most lazy r depth parts latest =>
    cases steps_of_step? inside with
    | add expr => cases expr
    | count latest' =>
      have flags : b.level.flags = a.level.flags := h.flags
      rw [h.level, Level.parts_onto, latest] at latest'
      obtain ⟨same, rfl⟩ := List.cons.inj latest'
      obtain ⟨rfl, rfl⟩ : r = _ ∧ depth = _ := by simpa using same
      rw [flags]
      exact h.change (f := fun l => { l with parts :=
        ⟨some (repeated r least most (lazy == a.level.flags.swapGreed)), depth + 1⟩ :: parts })
        (fun _ => rfl) _ _
  | branch =>
    obtain rfl := Option.some.inj inside
    exact h.change (f := Level.endBranch) (fun _ => rfl) _ _
  | openCapture =>
    cases steps_of_step? inside with
    | add expr => cases expr
    | openCapture => exact h.openGroup _ _ _
  | @openGroup change =>
    obtain rfl : change = [] := keeps
    obtain rfl := Option.some.inj inside
    exact h.openGroup _ _ _
  | setFlags => cases keeps
  | @close wrap around frames closes =>
    have stack : (b.level, b.outer) = Level.onto before base a.level a.outer := h
    rw [closes, Level.onto] at stack
    obtain ⟨level, outer⟩ := Prod.mk.inj stack
    simp only [Reader.step?, outer, level] at inside
    obtain rfl := Option.some.inj inside
    exact (Level.onto_change (f := (·.add (wrap a.level.body.1) (a.level.body.2 + 1)))
      fun _ => rfl).symm

theorem LiesOn.foldlM {lexemes : List Lexeme} (h : LiesOn before base a b)
    (keeps : ∀ l ∈ lexemes, l.KeepsFlags) (alone : lexemes.foldlM Reader.step? a = some a')
    (inside : lexemes.foldlM Reader.step? b = some b') : LiesOn before base a' b' := by
  induction lexemes generalizing a b with
  | nil =>
    obtain rfl := Option.some.inj alone
    obtain rfl := Option.some.inj inside
    exact h
  | cons lexeme lexemes ih =>
    rw [List.foldlM_cons] at alone inside
    obtain ⟨c, first, alone⟩ := Option.bind_eq_some_iff.1 alone
    obtain ⟨c', first', inside⟩ := Option.bind_eq_some_iff.1 inside
    obtain ⟨own, keeps⟩ := List.forall_mem_cons.1 keeps
    exact ih (h.step? own first first') keeps alone inside

end Reader

/-- A run that reads a text by itself tells what the text is read as everywhere. -/
theorem readsBranches_of_foldlM {lexemes : List Lexeme} {reader : Reader} (cuts : Cuts t lexemes)
    (run : lexemes.foldlM Reader.step? { level := { flags := { caseless } } } = some reader)
    (closed : reader.outer = []) :
    ReadsBranches caseless t reader.level.done reader.level.exprs := by
  refine ⟨lexemes, cuts, fun a b flags fresh inside => ?_⟩
  have start : Reader.LiesOn a.level.branches a.outer { level := { flags := { caseless } } } a := by
    change (a.level, a.outer) =
      ({ flags := initialFlags caseless, branches := a.level.branches, parts := [] }, a.outer)
    rw [← flags, ← fresh]
  have stop := start.foldlM cuts.keepsFlags run inside
  rw [Reader.LiesOn, closed, Level.onto] at stop
  obtain ⟨level, outer⟩ := Prod.mk.inj stop
  refine ⟨outer, ?_, ?_, ?_⟩
  · have start : Reader.HasFlags { caseless } { level := { flags := { caseless } } } :=
      ⟨rfl, by simp⟩
    rw [level, flags]
    exact (start.foldlM cuts.keepsFlags run).here
  · simp [level, Level.done]
  · rw [level]
    rfl

end RulesText.Regex
