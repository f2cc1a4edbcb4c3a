import RulesText.Proofs.Regex.Depth

/-!
# How deep patterns are nested

A fragment whose groups have different names is an expression unless it is nested too deep. How
deep it is can be told from the pieces it is put together from: side by side they are as deep as
the deepest of them, and a group adds three levels, one for a branch of several parts, one for
several branches and one for the group itself.

## Main definitions

* `Regex.NestsWithin`: a bound on the depth of a text, wherever it stands.

## Main statements

* `Regex.IsFragment.isSome_parse?`: a fragment that is not nested too deep is an expression.
-/

namespace RulesText.Regex

variable {s t : Text} {depth : Nat} {names : List Text}

theorem Part.depthOf_le_succ {ds : List Nat} (all : ∀ d ∈ ds, d ≤ depth) :
    depthOf ds ≤ depth + 1 := by
  have max : ds.max?.getD 0 ≤ depth := by
    cases eq : ds.max? with
    | none => exact Nat.zero_le _
    | some d => exact all d (List.max?_mem eq)
  unfold depthOf
  split <;> omega

/-- No part of the level is nested deeper. -/
structure Level.IsWithin (l : Level) (depth : Nat) : Prop where
  parts : ∀ p ∈ l.parts, p.depth ≤ depth
  branches : ∀ b ∈ l.branches, b.2 ≤ depth + 1

namespace Level

variable {l : Level}

theorem isWithin_fresh (flags : Flags) (depth : Nat) : IsWithin { flags } depth :=
  ⟨by simp, by simp⟩

theorem IsWithin.add (h : l.IsWithin depth) {d : Nat} (le : d ≤ depth) (r : Regex) :
    (l.add r d).IsWithin depth :=
  ⟨List.forall_mem_cons.2 ⟨le, h.parts⟩, h.branches⟩

theorem IsWithin.branch_le (h : l.IsWithin depth) : l.branch.2 ≤ depth + 1 :=
  Part.depthOf_le_succ (List.forall_mem_map.2 h.parts)

theorem IsWithin.endBranch (h : l.IsWithin depth) : l.endBranch.IsWithin depth :=
  ⟨by simp [Level.endBranch], List.forall_mem_cons.2 ⟨h.branch_le, h.branches⟩⟩

theorem IsWithin.body_le (h : l.IsWithin depth) : l.body.2 ≤ depth + 2 := by
  rw [body_snd]
  refine Part.depthOf_le_succ fun d mem => ?_
  rcases List.mem_cons.1 (List.mem_reverse.1 mem) with rfl | mem
  · exact h.branch_le
  · obtain ⟨b, inside, rfl⟩ := List.mem_map.1 mem
    exact h.branches b inside

end Level

/-- Wherever the text stands, it adds no parts that are nested deeper. -/
def NestsWithin (depth : Nat) (t : Text) : Prop :=
  ∃ lexemes, Cuts t lexemes ∧ ∀ d, depth ≤ d → ∀ a b : Reader, a.level.IsWithin d →
    lexemes.foldlM Reader.step? a = some b → b.level.IsWithin d ∧ b.outer = a.outer

namespace NestsWithin

theorem mono {more : Nat} (h : NestsWithin depth t) (le : depth ≤ more) : NestsWithin more t := by
  obtain ⟨lexemes, cuts, within⟩ := h
  exact ⟨lexemes, cuts, fun d deep => within d (Nat.le_trans le deep)⟩

theorem nil : NestsWithin 0 [] := by
  refine ⟨[], .nil, fun d _ a b within run => ?_⟩
  obtain rfl := Option.some.inj run
  exact ⟨within, rfl⟩

theorem append (h : NestsWithin depth s) (h' : NestsWithin depth t) (stands : Stands t) :
    NestsWithin depth (s ++ t) := by
  obtain ⟨lexemes, cuts, within⟩ := h
  obtain ⟨others, cuts', within'⟩ := h'
  refine ⟨lexemes ++ others, cuts.append cuts' stands, fun d deep a c start run => ?_⟩
  rw [List.foldlM_append] at run
  obtain ⟨b, first, second⟩ := Option.bind_eq_some_iff.1 run
  obtain ⟨middle, outer⟩ := within d deep a b start first
  obtain ⟨last, outer'⟩ := within' d deep b c middle second
  exact ⟨last, outer'.trans outer⟩

/-- A text of one lexeme that adds an expression. -/
theorem lexeme {l : Lexeme} (read : readLexeme? false t = some (l, [])) (keeps : l.KeepsFlags)
    (step : ∀ a : Reader, ∃ r, a.step? l = some (a.add r)) : NestsWithin 0 t := by
  refine ⟨[l], .cons read keeps .nil, fun d _ a b within run => ?_⟩
  obtain ⟨r, eq⟩ := step a
  rw [List.foldlM_cons, eq] at run
  obtain rfl := Option.some.inj run
  exact ⟨within.add (Nat.zero_le d) r, rfl⟩

theorem char {c : Char} (read : readLexeme? false t = some (.char c, [])) : NestsWithin 0 t :=
  lexeme read trivial fun _ => ⟨_, rfl⟩

theorem wordBoundary : NestsWithin 0 "\\b" :=
  lexeme (l := .look .wordBoundary) rfl trivial fun _ => ⟨_, rfl⟩

/-- One text or the other. -/
theorem or (h : NestsWithin depth s) (h' : NestsWithin depth t) :
    NestsWithin depth (s ++ '|' :: t) := by
  obtain ⟨lexemes, cuts, within⟩ := h
  obtain ⟨others, cuts', within'⟩ := h'
  refine ⟨lexemes ++ .branch :: others, cuts.append (.cons rfl trivial cuts') ⟨by simp, by simp⟩,
    fun d deep a c start run => ?_⟩
  rw [List.foldlM_append] at run
  obtain ⟨b, first, second⟩ := Option.bind_eq_some_iff.1 run
  rw [List.foldlM_cons] at second
  obtain ⟨middle, outer⟩ := within d deep a b start first
  obtain ⟨last, outer'⟩ :=
    within' d deep { b with level := b.level.endBranch } c middle.endBranch second
  exact ⟨last, outer'.trans outer⟩

/-- Several texts with bars between them. -/
theorem join {texts : List Text} (all : ∀ t ∈ texts, NestsWithin depth t) :
    NestsWithin depth (Text.join ['|'] texts) := by
  induction texts with
  | nil => exact nil.mono (Nat.zero_le depth)
  | cons t texts ih =>
    obtain ⟨own, others⟩ := List.forall_mem_cons.1 all
    cases texts with
    | nil =>
      rw [Text.join, List.intercalate_singleton]
      exact own
    | cons u texts =>
      have text : Text.join ['|'] (t :: u :: texts) =
          t ++ '|' :: Text.join ['|'] (u :: texts) := by
        simp [Text.join, List.intercalate]
      rw [text]
      exact own.or (ih others)

/-- A group around the text, with a count behind it or without. -/
theorem enclose {closing : Text} {others : List Lexeme} {k : Nat} (h : NestsWithin depth t)
    (closes : Cuts closing others) (stands : Stands closing)
    (back : ∀ b c : Reader, ∀ around outer, b.outer = (id, around) :: outer →
      others.foldlM Reader.step? b = some c →
      ∃ r, c.level = around.add r (b.level.body.2 + k) ∧ c.outer = outer) :
    NestsWithin (depth + 2 + k) ("(?:" ++ t ++ closing) := by
  obtain ⟨lexemes, cuts, within⟩ := h
  refine ⟨.openGroup [] :: (lexemes ++ others), ?_, fun d deep a c start run => ?_⟩
  · rw [List.append_assoc]
    exact .cons (IsFragment.opens_group _) rfl (cuts.append closes stands)
  · rw [List.foldlM_cons] at run
    obtain ⟨a', first, run⟩ := Option.bind_eq_some_iff.1 run
    obtain rfl := Option.some.inj first
    rw [List.foldlM_append] at run
    obtain ⟨b, second, last⟩ := Option.bind_eq_some_iff.1 run
    obtain ⟨inside, outer⟩ := within depth (Nat.le_refl depth) _ b (Level.isWithin_fresh _ _) second
    obtain ⟨r, level, outer'⟩ := back b c a.level a.outer outer last
    have le := inside.body_le
    exact ⟨level ▸ start.add (by omega) r, outer'⟩

theorem group (h : NestsWithin depth t) : NestsWithin (depth + 3) ("(?:" ++ t ++ ")") := by
  refine h.enclose (k := 1) IsFragment.cuts_close ⟨by decide, by decide⟩
    fun b c around outer opened run => ?_
  rw [List.foldlM_cons, Reader.step?, opened] at run
  obtain rfl := Option.some.inj run
  exact ⟨_, rfl, rfl⟩

theorem optional (h : NestsWithin depth t) : NestsWithin (depth + 4) ("(?:" ++ t ++ ")?") := by
  refine h.enclose (k := 2) IsFragment.cuts_optional ⟨by decide, by decide⟩
    fun b c around outer opened run => ?_
  rw [List.foldlM_cons, Reader.step?, opened] at run
  obtain rfl := Option.some.inj run
  exact ⟨_, rfl, rfl⟩

end NestsWithin

/-- A fragment whose groups have different names is an expression if it is not nested too deep. -/
theorem IsFragment.isSome_parse? (h : IsFragment t names) (distinct : names.Nodup)
    (nests : NestsWithin depth t) (le : depth + 2 ≤ Reader.maxDepth) : (parse? t).isSome := by
  obtain ⟨⟨r, d⟩, read⟩ := Option.isSome_iff_exists.1 (h.read?_isSome distinct false)
  obtain ⟨lexemes, cuts, within⟩ := nests
  obtain ⟨reader, ⟨run, -⟩, body⟩ := cuts.read?_eq_some.1 read
  obtain ⟨inside, -⟩ :=
    within depth (Nat.le_refl depth) _ reader (Level.isWithin_fresh _ _) run
  have deep := inside.body_le
  rw [body] at deep
  exact isSome_parse?_iff.2 ⟨r, d, read, Nat.le_trans deep le⟩

end RulesText.Regex
