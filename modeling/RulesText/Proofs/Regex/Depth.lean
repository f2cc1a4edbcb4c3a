import Mathlib.Data.List.Forall2
import RulesText.Proofs.Regex.Reading

/-!
# Conditions around a pattern

The depth of an expression and the names of its groups are what a pattern can fail on although
every part of it can be read. A pattern that can be read with conditions before and behind it can
also be read without them: it has the same groups and is nested no deeper.

## Main definitions

* `Regex.Reader.IsUnder`: a reader has no more parts than another one, and none of them is deeper.

## Main statements

* `Regex.IsFragment.isSome_parse?_anchored`: conditions around a pattern are not needed to read it.
-/

namespace RulesText.Regex

variable {s t u : Text} {names : List Text} {lexeme : Lexeme}
  {lexemes front back : List Lexeme}

/-! ## Names of groups -/

namespace Reader

variable {a b : Reader}

theorem not_mem_names (step : a.step? lexeme = some b) :
    ∀ name ∈ lexeme.name?, name ∉ a.names := by
  cases steps_of_step? step with
  | add expr => simp [Flags.name?_of_expr? expr]
  | openCapture new => exact new
  | _ => simp [Lexeme.name?]

/-- No group name is used twice on the way. -/
theorem nodup_names (unicode : a.IsUnicode) (keeps : ∀ l ∈ lexemes, l.KeepsFlags)
    (run : lexemes.foldlM step? a = some b) :
    (lexemes.filterMap Lexeme.name?).Nodup ∧
      ∀ name ∈ lexemes.filterMap Lexeme.name?, name ∉ a.names := by
  induction lexemes generalizing a with
  | nil => simp
  | cons lexeme lexemes ih =>
    rw [List.foldlM_cons] at run
    obtain ⟨c, first, run⟩ := Option.bind_eq_some_iff.1 run
    obtain ⟨own, keeps⟩ := List.forall_mem_cons.1 keeps
    obtain ⟨unicode, -, taken⟩ := step?_eq_some unicode own first
    obtain ⟨distinct, fresh⟩ := ih unicode keeps run
    have new := not_mem_names first
    simp only [taken, List.mem_append, not_or, Option.mem_toList] at fresh
    cases named : lexeme.name? with
    | none =>
      rw [List.filterMap_cons_none named]
      exact ⟨distinct, fun name mem => (fresh name mem).2⟩
    | some name =>
      rw [List.filterMap_cons_some named]
      refine ⟨List.nodup_cons.2 ⟨fun mem => (fresh name mem).1 named, distinct⟩, ?_⟩
      exact List.forall_mem_cons.2 ⟨new name named, fun other mem => (fresh other mem).2⟩

end Reader

/-! ## Depths -/

/-- Fewer parts that are less deep make up something less deep. -/
theorem Part.depthOf_le {ds es : List Nat} (length : ds.length ≤ es.length)
    (deeper : ∀ d ∈ ds, ∃ e ∈ es, d ≤ e) : depthOf ds ≤ depthOf es := by
  have max : ds.max?.getD 0 ≤ es.max?.getD 0 := by
    cases eq : ds.max? with
    | none => exact Nat.zero_le _
    | some d =>
      obtain ⟨e, mem, le⟩ := deeper d (List.max?_mem eq)
      exact Nat.le_trans le (List.le_max?_getD_of_mem mem)
  unfold depthOf
  split <;> split <;> omega

/-- The first parts are no deeper than those of a longer list, one by one. -/
def DepthsUnder (ds es : List Nat) : Prop :=
  ∃ first, List.Forall₂ (· ≤ ·) ds first ∧ first <+: es

namespace DepthsUnder

variable {ds es : List Nat} {d e : Nat}

theorem nil (es : List Nat) : DepthsUnder [] es :=
  ⟨[], .nil, List.nil_prefix⟩

theorem refl (ds : List Nat) : DepthsUnder ds ds :=
  ⟨ds, List.forall₂_same.2 fun d _ => Nat.le_refl d, List.prefix_rfl⟩

theorem cons (le : d ≤ e) (h : DepthsUnder ds es) : DepthsUnder (d :: ds) (e :: es) :=
  let ⟨first, all, pre⟩ := h
  ⟨e :: first, .cons le all, (List.prefix_cons_inj e).2 pre⟩

theorem of_cons (h : DepthsUnder (d :: ds) (e :: es)) : d ≤ e ∧ DepthsUnder ds es := by
  obtain ⟨first, all, pre⟩ := h
  cases all with
  | cons le all =>
    obtain ⟨rfl, rest⟩ := List.cons_prefix_cons.1 pre
    exact ⟨le, _, all, rest⟩

theorem length_le (h : DepthsUnder ds es) : ds.length ≤ es.length := by
  obtain ⟨first, all, pre⟩ := h
  exact Nat.le_trans (Nat.le_of_eq all.length_eq) pre.length_le

theorem exists_le (h : DepthsUnder ds es) (mem : d ∈ ds) : ∃ e ∈ es, d ≤ e := by
  obtain ⟨first, all, pre⟩ := h
  obtain ⟨i, at_, rfl⟩ := List.getElem_of_mem mem
  have at_' : i < first.length := all.length_eq ▸ at_
  exact ⟨first[i], pre.subset (List.getElem_mem at_'), all.get at_ at_'⟩

theorem depthOf_le (h : DepthsUnder ds es) : Part.depthOf ds ≤ Part.depthOf es :=
  Part.depthOf_le h.length_le fun _ mem => h.exists_le mem

end DepthsUnder

/-- The level has no more parts and branches than the other one, and none of them is deeper. -/
structure Level.IsUnder (l m : Level) : Prop where
  parts : DepthsUnder (l.parts.map (·.depth)) (m.parts.map (·.depth))
  branches : DepthsUnder (l.branches.map (·.2)) (m.branches.map (·.2))

namespace Level

variable {l m : Level} {d e : Nat}

theorem IsUnder.refl (l : Level) : l.IsUnder l :=
  ⟨.refl _, .refl _⟩

theorem IsUnder.add (h : l.IsUnder m) (le : d ≤ e) (r r' : Regex) :
    (l.add r d).IsUnder (m.add r' e) :=
  ⟨h.parts.cons le, h.branches⟩

theorem IsUnder.endBranch (h : l.IsUnder m) : l.endBranch.IsUnder m.endBranch :=
  ⟨.nil _, h.branches.cons h.parts.depthOf_le⟩

/-- How deep a group is nested, from the depths of its branches. -/
theorem body_snd (l : Level) : l.body.2 =
    Part.depthOf (Part.depthOf (l.parts.map (·.depth)) :: l.branches.map (·.2)).reverse := by
  have all : (l.branch :: l.branches).reverse.map (·.2) =
      (Part.depthOf (l.parts.map (·.depth)) :: l.branches.map (·.2)).reverse := by
    rw [List.map_reverse]
    rfl
  rw [← all, body]
  split
  · rename_i none
    simp at none
  · rfl

theorem body_le {depths depths' : List Nat} (h : DepthsUnder depths depths') :
    Part.depthOf depths.reverse ≤ Part.depthOf depths'.reverse := by
  refine Part.depthOf_le (by simpa using h.length_le) fun d mem => ?_
  obtain ⟨e, mem, le⟩ := h.exists_le (List.mem_reverse.1 mem)
  exact ⟨e, List.mem_reverse.2 mem, le⟩

theorem IsUnder.body_le (h : l.IsUnder m) : l.body.2 ≤ m.body.2 := by
  rw [body_snd, body_snd]
  exact Level.body_le (h.branches.cons h.parts.depthOf_le)

/-- One more part makes a group no less deep. -/
theorem body_le_add (l : Level) (r : Regex) (d : Nat) : l.body.2 ≤ (l.add r d).body.2 := by
  rw [body_snd, body_snd]
  refine Level.body_le (.cons (Part.depthOf_le (by simp [add]) fun e mem => ?_) (.refl _))
  exact ⟨e, List.mem_cons_of_mem _ mem, Nat.le_refl e⟩

end Level

namespace Reader

variable {a b a' b' : Reader}

/-- Every level of the reader is under that of the other one. -/
structure IsUnder (a b : Reader) : Prop where
  level : a.level.IsUnder b.level
  outer : List.Forall₂ (fun f g : Frame => f.2.IsUnder g.2) a.outer b.outer

theorem IsUnder.add (h : a.IsUnder b) (r r' : Regex) (depth : Nat) :
    (a.add r depth).IsUnder (b.add r' depth) :=
  ⟨h.level.add (Nat.le_refl depth) r r', h.outer⟩

theorem IsUnder.openGroup (h : a.IsUnder b) (flags flags' : Flags) (wrap wrap' : Regex → Regex)
    (names names' : List Text) :
    IsUnder { a.openGroup flags wrap with names }
      { b.openGroup flags' wrap' with names := names' } :=
  ⟨⟨.nil _, .nil _⟩, .cons h.level h.outer⟩

/-- A group that ends is put into the level around it with its depth. -/
theorem IsUnder.of_close
    (outer : List.Forall₂ (fun f g : Frame => f.2.IsUnder g.2) a.outer b.outer)
    (le : a.level.body.2 ≤ b.level.body.2) (step : a.step? .close = some a')
    (step' : b.step? .close = some b') : a'.IsUnder b' := by
  cases steps_of_step? step with
  | add expr => cases expr
  | close closes =>
    rw [closes] at outer
    obtain ⟨frame, frames, around, rest, closes'⟩ := List.forall₂_cons_left_iff.1 outer
    obtain rfl := Option.some.inj ((Steps.close closes').step?_eq.symm.trans step')
    exact ⟨around.add (Nat.succ_le_succ le) _ _, rest⟩

theorem IsUnder.step? (h : a.IsUnder b) (step : a.step? lexeme = some a')
    (step' : b.step? lexeme = some b') : a'.IsUnder b' := by
  cases steps_of_step? step with
  | add expr =>
    cases steps_of_step? step' with
    | add => exact h.add _ _ _
    | _ => cases expr
  | count latest =>
    cases steps_of_step? step' with
    | add expr' => cases expr'
    | count latest' =>
      have parts := h.level.parts
      rw [latest, latest', List.map_cons, List.map_cons] at parts
      obtain ⟨le, rest⟩ := parts.of_cons
      exact ⟨⟨rest.cons (Nat.succ_le_succ le), h.level.branches⟩, h.outer⟩
  | branch =>
    obtain rfl := Option.some.inj step'
    exact ⟨h.level.endBranch, h.outer⟩
  | openCapture =>
    cases steps_of_step? step' with
    | add expr' => cases expr'
    | openCapture => exact h.openGroup _ _ _ _ _ _
  | openGroup =>
    obtain rfl := Option.some.inj step'
    exact h.openGroup _ _ _ _ _ _
  | setFlags =>
    obtain rfl := Option.some.inj step'
    exact ⟨⟨h.level.parts.cons (Nat.le_refl 0), h.level.branches⟩, h.outer⟩
  | close => exact .of_close h.outer h.level.body_le step step'

theorem IsUnder.foldlM (h : a.IsUnder b) (run : lexemes.foldlM Reader.step? a = some a')
    (run' : lexemes.foldlM Reader.step? b = some b') : a'.IsUnder b' := by
  induction lexemes generalizing a b with
  | nil =>
    obtain rfl := Option.some.inj run
    obtain rfl := Option.some.inj run'
    exact h
  | cons lexeme lexemes ih =>
    rw [List.foldlM_cons] at run run'
    obtain ⟨c, first, run⟩ := Option.bind_eq_some_iff.1 run
    obtain ⟨c', first', run'⟩ := Option.bind_eq_some_iff.1 run'
    exact ih (h.step? first first') run run'

/-- Conditions only add to the current branch. -/
theorem of_looks (looks : ∀ l ∈ lexemes, ∃ condition, l = .look condition)
    (run : lexemes.foldlM step? a = some b) :
    b.outer = a.outer ∧ a.level.body.2 ≤ b.level.body.2 := by
  induction lexemes generalizing a with
  | nil =>
    obtain rfl := Option.some.inj run
    exact ⟨rfl, Nat.le_refl _⟩
  | cons lexeme lexemes ih =>
    obtain ⟨⟨condition, rfl⟩, others⟩ := List.forall_mem_cons.1 looks
    rw [List.foldlM_cons] at run
    obtain ⟨c, first, run⟩ := Option.bind_eq_some_iff.1 run
    obtain rfl := Option.some.inj first
    obtain ⟨outer, le⟩ := ih others run
    exact ⟨outer, Nat.le_trans (Level.body_le_add ..) le⟩

end Reader

/-! ## Patterns of whole texts -/

theorem Cuts.anchored (h : Cuts t lexemes) :
    Cuts (anchored t) (.caret :: .openGroup [] :: (lexemes ++ [.close, .dollar])) := by
  have closing : Cuts ")$" [.close, .dollar] := .cons rfl trivial (.cons rfl trivial .nil)
  have inner : Cuts (t ++ (")$" : Text)) (lexemes ++ [.close, .dollar]) :=
    h.append closing ⟨by decide, by decide⟩
  have text : Regex.anchored t = ("^(?:" : Text) ++ (t ++ (")$" : Text)) := by
    simp [Regex.anchored]
  rw [text]
  exact .cons rfl trivial (.cons (IsFragment.opens_group _) rfl inner)

/-- The lexemes can be read to their end, where no group is open. -/
def IsRead (lexemes : List Lexeme) (reader : Reader) : Prop :=
  lexemes.foldlM Reader.step? ({ level := { flags := {} } } : Reader) = some reader ∧
    reader.outer = []

theorem Cuts.read?_eq_some (h : Cuts t lexemes) {r : Regex} {depth : Nat} :
    read? t false = some (r, depth) ↔
      ∃ reader, IsRead lexemes reader ∧ reader.level.body = (r, depth) := by
  have lexed : lexemes? t = some lexemes := h.lexemesFrom? (by simp)
  rw [read?, lexed]
  simp only [Option.bind_eq_bind, Option.bind_some, Option.bind_eq_some_iff,
    Option.ite_none_right_eq_some, Option.some.injEq, List.isEmpty_iff, IsRead, and_assoc]

theorem isSome_parse?_iff : (parse? t).isSome ↔
    ∃ r depth, read? t false = some (r, depth) ∧ depth ≤ Reader.maxDepth := by
  rw [parse?_eq]
  cases read? t false with
  | none => simp
  | some result =>
    obtain ⟨r, depth⟩ := result
    simp [Option.isSome_iff_exists]

/-- A reader inside the group of a pattern that must match a whole text. -/
def Reader.anchor : Reader :=
  Reader.openGroup (({ level := { flags := {} } } : Reader).add (look .textStart)) {} id

/-- What becomes of a pattern when it must match a whole text. -/
theorem Reader.exists_of_anchored {reader : Reader}
    (run : (Lexeme.caret :: .openGroup [] :: (lexemes ++ [.close, .dollar])).foldlM Reader.step?
      ({ level := { flags := {} } } : Reader) = some reader) :
    ∃ b c r, lexemes.foldlM Reader.step? anchor = some b ∧ b.step? .close = some c ∧
      reader = c.add r := by
  change (lexemes ++ [Lexeme.close, .dollar]).foldlM Reader.step? anchor = some reader at run
  rw [List.foldlM_append] at run
  obtain ⟨b, first, run⟩ := Option.bind_eq_some_iff.1 run
  rw [List.foldlM_cons] at run
  obtain ⟨c, close, run⟩ := Option.bind_eq_some_iff.1 run
  exact ⟨b, c, _, first, close, (Option.some.inj run).symm⟩

/-- Conditions around a pattern are not needed to read it. -/
theorem IsFragment.isSome_parse?_anchored (h : IsFragment t names) (before : Cuts s front)
    (behind : Cuts u back) (looks : ∀ l ∈ front ++ back, ∃ condition, l = .look condition)
    (stands : Stands u) (parsed : (parse? (Regex.anchored (s ++ t ++ u))).isSome) :
    (parse? (Regex.anchored t)).isSome := by
  obtain ⟨lexemes, c, cuts, -, rfl⟩ := id h
  have whole := ((before.append cuts h.stands).append behind stands).anchored
  obtain ⟨r, depth, read, limit⟩ := isSome_parse?_iff.1 parsed
  obtain ⟨reader, ⟨run, -⟩, body⟩ := whole.read?_eq_some.1 read
  -- The pattern itself can be read, since its group names are among those of the whole.
  have distinct : (lexemes.filterMap Lexeme.name?).Nodup := by
    have all := (Reader.nodup_names ⟨rfl, by simp⟩ whole.keepsFlags run).1
    refine all.sublist (List.Sublist.filterMap _ ?_)
    refine .cons _ (.cons _ (List.Sublist.trans ?_ (List.sublist_append_left _ _)))
    exact (List.sublist_append_right _ _).trans (List.sublist_append_left _ _)
  obtain ⟨⟨r', depth'⟩, read'⟩ :=
    Option.isSome_iff_exists.1 (h.anchored.read?_isSome distinct false)
  refine isSome_parse?_iff.2 ⟨r', depth', read', Nat.le_trans ?_ limit⟩
  obtain ⟨reader', ⟨run', -⟩, body'⟩ := cuts.anchored.read?_eq_some.1 read'
  -- Its run stays under the one of the whole, which has the conditions besides.
  obtain ⟨b', c', r₁, inner', close', rfl⟩ := Reader.exists_of_anchored run'
  obtain ⟨b, c, r₂, inner, close, rfl⟩ := Reader.exists_of_anchored run
  rw [List.foldlM_append, List.foldlM_append] at inner
  obtain ⟨d, inner, last⟩ := Option.bind_eq_some_iff.1 inner
  obtain ⟨e, first, inner⟩ := Option.bind_eq_some_iff.1 inner
  obtain ⟨looks, looks'⟩ := List.forall_mem_append.1 looks
  obtain ⟨outer, -⟩ := Reader.of_looks looks first
  obtain ⟨outer', le⟩ := Reader.of_looks looks' last
  have start : Reader.anchor.IsUnder e :=
    ⟨⟨.nil _, .nil _⟩, outer ▸ List.forall₂_same.2 fun frame _ => .refl frame.2⟩
  have under := start.foldlM inner' inner
  have closed : c'.IsUnder c :=
    .of_close (outer' ▸ under.outer) (Nat.le_trans under.level.body_le le) close' close
  have deeper := (closed.add r₁ r₂ 0).level.body_le
  rwa [body, body'] at deeper

end RulesText.Regex
