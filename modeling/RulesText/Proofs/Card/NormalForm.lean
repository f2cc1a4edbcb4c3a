import Mathlib.Data.List.Chain
import RulesText.Card.NormalForm
import RulesText.Proofs.Card.SelfReference
import RulesText.Proofs.Regex.Replace
import RulesText.Proofs.Text.Lines

/-!
# What the normal form guarantees

The lines of a card's text in normal form are trimmed, without tabs and without two spaces in a
row, and they can be joined and taken apart again. Where reminder text is left out, nothing in
parentheses is left: each step after that one keeps what parentheses there are in their order.

## Main definitions

* `Card.IsNormalLine`: a line in normal form.
* `Card.ClosesNone`: a text without closing parentheses behind opening ones.

## Main statements

* `Card.normalLines_spec`: the guarantees of the normal form.
-/

namespace RulesText.Card

open Text (IsTrimmed)

variable {name t line : Text} {inRun : Bool} {f : Char → Bool}

/-! ## Parentheses -/

/-- No opening parenthesis is followed by a closing one. -/
def ClosesNone (t : Text) : Prop :=
  ∀ before after, t = before ++ '(' :: after → ')' ∉ after

/-- The first of two characters does not open a parenthesis that the second one closes. -/
def LeavesOpen (a b : Char) : Prop :=
  a = '(' → b ≠ ')'

def isParenthesis (c : Char) : Bool :=
  c == '(' || c == ')'

theorem closesNone_of_pairwise (h : t.Pairwise LeavesOpen) : ClosesNone t := by
  rintro before after rfl closing
  have behind := (List.pairwise_cons.1 (List.pairwise_append.1 h).2.1).1
  exact behind ')' closing rfl rfl

theorem pairwise_filter_isParenthesis :
    (t.filter isParenthesis).Pairwise LeavesOpen ↔ t.Pairwise LeavesOpen := by
  rw [List.pairwise_filter]
  refine List.Pairwise.iff fun a b => ⟨fun own opening closing => ?_, fun open' _ _ => open'⟩
  subst opening closing
  exact own rfl rfl rfl rfl

theorem pairwise_of_notMem (h : ')' ∉ t) : t.Pairwise LeavesOpen :=
  List.pairwise_of_forall_mem_list fun _ _ _ mem _ closing => h (closing ▸ mem)

theorem pairwise_cons_of_ne {c : Char} (ne : c ≠ '(') (h : t.Pairwise LeavesOpen) :
    (c :: t).Pairwise LeavesOpen :=
  List.pairwise_cons.2 ⟨fun _ _ opening => absurd opening ne, h⟩

theorem pairwise_append_of_notMem {front : Text} (none : '(' ∉ front)
    (h : t.Pairwise LeavesOpen) : (front ++ t).Pairwise LeavesOpen := by
  induction front with
  | nil => exact h
  | cons c front ih =>
    have ne : c ≠ '(' := fun eq => none (eq ▸ List.mem_cons_self)
    exact pairwise_cons_of_ne ne (ih fun mem => none (List.mem_cons_of_mem c mem))

/-- What is left without reminder text has no closing parenthesis behind an opening one. -/
theorem pairwise_dropReminders (t : Text) : (dropReminders t).Pairwise LeavesOpen := by
  have blanks (t : Text) : '(' ∉ t.takeWhile Text.isBlank := fun mem =>
    absurd (List.mem_takeWhile_imp mem) (by decide)
  fun_induction dropReminders t with
  | case1 t none =>
    have whole := List.takeWhile_append_dropWhile (p := Text.isBlank) (l := t)
    rw [none] at whole
    exact whole ▸ pairwise_append_of_notMem (blanks t) .nil
  | case2 t rest unclosed eq =>
    have whole := List.takeWhile_append_dropWhile (p := Text.isBlank) (l := t)
    rw [eq] at whole
    have others : ')' ∉ rest := fun mem => by
      simpa using List.dropWhile_eq_nil_iff.1 unclosed ')' mem
    rw [← whole]
    refine pairwise_append_of_notMem (blanks t)
      (List.pairwise_cons.2 ⟨fun c mem _ closing => ?_, pairwise_of_notMem others⟩)
    exact others (closing ▸ mem)
  | case3 t rest closing after found shorter eq ih => exact ih
  | case4 => exact .nil
  | case5 t c rest eq front ne ih =>
    refine pairwise_append_of_notMem (blanks t) (pairwise_cons_of_ne ne ?_)
    split
    · exact ih ‹_›
    · exact .nil

/-! ## Spaces and tabs -/

theorem notMem_tab_collapseSpaces (inRun : Bool) (t : Text) : '\t' ∉ collapseSpaces inRun t := by
  fun_induction collapseSpaces inRun t with
  | case1 => exact List.not_mem_nil
  | case2 c rest _ ih => exact ih
  | case3 _ c rest _ _ ih => exact List.not_mem_cons_of_ne_of_not_mem (by decide) ih
  | case4 _ c rest other ih =>
    refine List.not_mem_cons_of_ne_of_not_mem (fun tab => other ?_) ih
    rw [← tab]
    rfl

/-- No space follows another one, and none comes first in a run that goes on. -/
theorem isChain_collapseSpaces (inRun : Bool) (t : Text) :
    (collapseSpaces inRun t).IsChain (fun c d => c = ' ' → d ≠ ' ') ∧
      (inRun → (collapseSpaces inRun t).head? ≠ some ' ') := by
  fun_induction collapseSpaces inRun t with
  | case1 => exact ⟨.nil, by simp⟩
  | case2 c rest _ ih => exact ih
  | case3 inRun c rest _ ends ih =>
    refine ⟨List.isChain_cons.2 ⟨fun d first _ space => ?_, ih.1⟩, fun run => absurd run ends⟩
    exact ih.2 rfl (space ▸ first)
  | case4 inRun c rest other ih =>
    have ne : c ≠ ' ' := fun space => other (space ▸ rfl)
    exact ⟨List.isChain_cons.2 ⟨fun _ _ space => absurd space ne, ih.1⟩,
      fun _ first => ne (Option.some.inj first)⟩

/-- What is no space or tab stays as it is. -/
theorem filter_collapseSpaces (space : f ' ' = false) (tab : f '\t' = false) (inRun : Bool)
    (t : Text) : (collapseSpaces inRun t).filter f = t.filter f := by
  have dropped : ∀ c, isSpaceOrTab c → f c = false := by
    intro c blank
    rcases Bool.or_eq_true_iff.1 blank with eq | eq
    · exact beq_iff_eq.1 eq ▸ space
    · exact beq_iff_eq.1 eq ▸ tab
  fun_induction collapseSpaces inRun t with
  | case1 => rfl
  | case2 c rest blank ih => rw [ih, List.filter_cons, dropped c blank]; rfl
  | case3 inRun c rest blank _ ih =>
    rw [List.filter_cons, space, List.filter_cons, dropped c blank]
    exact ih
  | case4 inRun c rest other ih => rw [List.filter_cons, List.filter_cons, ih]

/-! ## Names -/

/-- Every name becomes a mark, so nothing but marks is added. -/
theorem filter_markSelf_sublist (none : selfMark.filter f = []) (name t : Text) :
    ((markSelf name t).filter f).Sublist (t.filter f) := by
  rw [markSelf]
  split
  · rename_i r named
    rw [← searcher_eq named]
    exact Regex.Searcher.filter_replaceFrom_sublist (fun _ _ => Regex.reaches_of_matchAt?) none _
  · exact List.Sublist.refl _

/-! ## Lines -/

/-- A line in normal form. -/
structure IsNormalLine (line : Text) : Prop where
  noFeed : '\n' ∉ line
  noTab : '\t' ∉ line
  singleSpaces : ¬[' ', ' '] <:+: line
  trimmed : line.IsTrimmed

theorem isNormalLine_of_mem {stripReminders : Bool}
    (mem : line ∈ normalLines name t stripReminders) : IsNormalLine line := by
  obtain ⟨before, after, eq, -⟩ := Text.exists_of_mem_map_trim mem
  have inside : line <:+: _ := ⟨before, after, eq.symm⟩
  refine ⟨?_, fun tab => ?_, fun spaces => ?_, ?_⟩
  · obtain ⟨piece, own, rfl⟩ := List.mem_map.1 mem
    obtain ⟨front, back, whole, -⟩ := Text.exists_trim piece
    intro feed
    have feed : '\n' ∈ piece := by
      rw [whole]
      simp [feed]
    simpa using Text.not_of_mem_splitOnP own '\n' feed
  · exact notMem_tab_collapseSpaces _ _ (inside.subset tab)
  · have chain := List.IsChain.infix (isChain_collapseSpaces _ _).1 (spaces.trans inside)
    simp at chain
  · obtain ⟨piece, -, rfl⟩ := List.mem_map.1 mem
    exact Text.isTrimmed_trim piece

/-- Behind the step that leaves out reminder text, no step adds parentheses or puts them in
another order. -/
theorem pairwise_join_normalLines (name t : Text) :
    (Text.join ['\n'] (normalLines name t true)).Pairwise LeavesOpen := by
  let kept := dropReminders (Text.lowercase t)
  let collapsed := collapseSpaces false (markSelf name kept)
  have joined : ((Text.join ['\n'] (normalLines name t true)).filter isParenthesis).Sublist
      (collapsed.filter isParenthesis) := (Text.join_map_trim_sublist collapsed).filter _
  have marked : (collapsed.filter isParenthesis).Sublist (kept.filter isParenthesis) := by
    rw [filter_collapseSpaces rfl rfl]
    exact filter_markSelf_sublist rfl name kept
  have closed : (kept.filter isParenthesis).Pairwise LeavesOpen :=
    pairwise_filter_isParenthesis.2 (pairwise_dropReminders _)
  exact pairwise_filter_isParenthesis.1 (closed.sublist (joined.trans marked))

/-- The pattern of a card's names can always be read. There is at least one line of normal form,
each line is in normal form, and the lines can be joined and taken apart again. Without reminder
text, no opening parenthesis is closed. -/
theorem normalLines_spec (name t : Text) (stripReminders : Bool) :
    (names name = [] ∧ selfReference? name = none ∨
      ∃ r, Regex.parse? (selfPattern name) = some r ∧ selfReference? name = some r.searcher) ∧
    normalLines name t stripReminders ≠ [] ∧
    (∀ line ∈ normalLines name t stripReminders, IsNormalLine line) ∧
    Text.lines (Text.join ['\n'] (normalLines name t stripReminders)) =
      normalLines name t stripReminders ∧
    (stripReminders → ClosesNone (Text.join ['\n'] (normalLines name t stripReminders))) := by
  have some_line : normalLines name t stripReminders ≠ [] := by
    rw [normalLines, ne_eq, List.map_eq_nil_iff]
    exact List.splitOnP_ne_nil _ _
  have normal : ∀ line ∈ normalLines name t stripReminders, IsNormalLine line :=
    fun _ => isNormalLine_of_mem
  refine ⟨?_, some_line, normal, ?_, ?_⟩
  · by_cases nameless : names name = []
    · exact .inl ⟨nameless, selfReference?_eq_none nameless⟩
    · exact .inr (parse?_selfPattern nameless)
  · exact Text.lines_join some_line fun line mem => (normal line mem).noFeed
  · rintro rfl
    exact closesNone_of_pairwise (pairwise_join_normalLines name t)

end RulesText.Card
