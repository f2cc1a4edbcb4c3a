import Mathlib.Data.List.TakeWhile
import RulesText.Proofs.Text.Words

/-!
# Lines and the blanks at their ends

A text is its lines with line feeds between them. A line without the blanks at its ends stands in
the text with nothing or a blank before it and behind it.

## Main definitions

* `Text.IsTrimmed`: a text without blanks at its ends.
* `Text.IsSetOff`: nothing or a blank at either side.

## Main statements

* `Text.lines_join`: lines can be read back.
* `Text.exists_of_mem_map_trim`: where a trimmed line stands.
-/

namespace RulesText.Text

variable {t line front back : Text} {pieces : List Text}

/-! ## Lines and line feeds -/

/-- Lines with a line feed behind each of them. -/
def closed (lines : List Text) : Text :=
  lines.flatMap (· ++ ['\n'])

/-- Lines with a line feed before each of them. -/
def opened (lines : List Text) : Text :=
  lines.flatMap ('\n' :: ·)

theorem join_lines_cons (line : Text) (after : List Text) :
    join ['\n'] (line :: after) = line ++ opened after := by
  induction after generalizing line with
  | nil => simp [join, opened]
  | cons next after ih =>
    have ih := ih next
    rw [join] at ih ⊢
    rw [List.intercalate_cons_cons, ih]
    simp [opened]

theorem join_lines (before : List Text) (line : Text) (after : List Text) :
    join ['\n'] (before ++ line :: after) = closed before ++ (line ++ opened after) := by
  induction before with
  | nil => exact join_lines_cons line after
  | cons first before ih =>
    obtain ⟨next, rest, eq⟩ := List.exists_cons_of_ne_nil
      (List.append_ne_nil_of_right_ne_nil before (List.cons_ne_nil line after))
    have step : join ['\n'] (first :: (before ++ line :: after)) =
        first ++ ['\n'] ++ join ['\n'] (before ++ line :: after) := by
      rw [eq, join, join, List.intercalate_cons_cons]
    rw [List.cons_append, step, ih]
    simp [closed]

theorem takeWhile_opened (lines : List Text) :
    (opened lines).takeWhile (· != '\n') = [] := by
  cases lines <;> simp [opened]

theorem takeWhile_reverse_closed (lines : List Text) :
    (closed lines).reverse.takeWhile (· != '\n') = [] := by
  rcases List.eq_nil_or_concat lines with rfl | ⟨before, last, rfl⟩ <;> simp [closed]

/-- What does not hold a character is taken whole on the way to that character. -/
theorem takeWhile_append_of_notMem {c : Char} {front back : Text} (h : c ∉ front) :
    (front ++ back).takeWhile (· != c) = front ++ back.takeWhile (· != c) :=
  List.takeWhile_append_of_pos fun d mem => by
    simpa using fun eq : d = c => h (eq ▸ mem)

theorem lines_join (nonempty : pieces ≠ []) (unbroken : ∀ l ∈ pieces, '\n' ∉ l) :
    lines (join ['\n'] pieces) = pieces :=
  List.splitOn_intercalate '\n' unbroken nonempty

theorem join_lines_self (t : Text) : join ['\n'] (lines t) = t :=
  List.intercalate_splitOn '\n'

/-! ## Blanks at the ends -/

/-- No blank stands at either end. -/
structure IsTrimmed (t : Text) : Prop where
  first : ∀ c ∈ t.head?, isBlank c = false
  last : ∀ c ∈ t.getLast?, isBlank c = false

theorem not_isBlank_of_head?_dropWhile {c : Char} (h : (t.dropWhile isBlank).head? = some c) :
    isBlank c = false := by
  have first := List.head?_dropWhile_not isBlank t
  rwa [h] at first

theorem trimEnd_append (t : Text) : trimEnd t ++ (t.reverse.takeWhile isBlank).reverse = t := by
  rw [trimEnd, ← List.reverse_append, List.takeWhile_append_dropWhile, List.reverse_reverse]

theorem isTrimmed_trim (t : Text) : IsTrimmed (trim t) where
  first := by
    intro c first
    obtain ⟨rest, eq⟩ := List.head?_eq_some_iff.1 first
    refine not_isBlank_of_head?_dropWhile (t := t) ?_
    have ends := trimEnd_append (trimStart t)
    rw [← trim, eq] at ends
    rw [← trimStart, ← ends]
    rfl
  last := by
    intro c last
    rw [trim, trimEnd, List.getLast?_reverse] at last
    exact not_isBlank_of_head?_dropWhile last

/-- Nothing or a blank stands in front of a text and behind it. -/
structure IsSetOff (before after : Text) : Prop where
  before : ∀ c ∈ before.getLast?, isBlank c
  after : ∀ c ∈ after.head?, isBlank c

/-- Only blanks are left out at the ends of a text. -/
theorem exists_trim (t : Text) :
    ∃ front back, t = front ++ trim t ++ back ∧ (∀ c ∈ front, isBlank c) ∧
      ∀ c ∈ back, isBlank c := by
  refine ⟨t.takeWhile isBlank, ((trimStart t).reverse.takeWhile isBlank).reverse, ?_,
    fun c => List.mem_takeWhile_imp, fun c mem => List.mem_takeWhile_imp (List.mem_reverse.1 mem)⟩
  rw [List.append_assoc, trim, trimEnd_append]
  exact List.takeWhile_append_dropWhile.symm

/-- Trimming leaves out nothing but blanks. -/
theorem filter_trim (t : Text) :
    (trim t).filter (!isBlank ·) = t.filter (!isBlank ·) := by
  have none : ∀ l : Text, (∀ c ∈ l, isBlank c) → l.filter (!isBlank ·) = [] :=
    fun l blank => List.filter_eq_nil_iff.2 fun c mem => by simp [blank c mem]
  obtain ⟨before, after, eq, blank, blank'⟩ := exists_trim t
  calc (trim t).filter (!isBlank ·) = (before ++ trim t ++ after).filter (!isBlank ·) := by
        simp [none before blank, none after blank']
    _ = t.filter (!isBlank ·) := by rw [← eq]

theorem filter_flatten_lines (t : Text) :
    (lines t).flatten.filter (!isBlank ·) = t.filter (!isBlank ·) := by
  rw [lines, flatten_splitOnP, List.filter_filter]
  refine List.filter_congr fun c _ => ?_
  by_cases feed : c = '\n'
  · subst feed
    rfl
  · simp [feed]

/-- A line of a text stands between line feeds or at an end of the text. -/
theorem exists_of_mem_lines (mem : line ∈ lines t) :
    ∃ before after, t = before ++ line ++ after ∧ IsSetOff before after := by
  obtain ⟨front, back, eq⟩ := List.append_of_mem mem
  have whole := join_lines_self t
  rw [eq, join_lines, ← List.append_assoc] at whole
  refine ⟨_, _, whole.symm, ⟨fun c last => ?_, fun c first => ?_⟩⟩
  · rcases List.eq_nil_or_concat front with rfl | ⟨others, l, rfl⟩
    · cases last
    · obtain rfl : '\n' = c := by simpa [closed] using last
      decide
  · cases back with
    | nil => cases first
    | cons l others =>
      obtain rfl : '\n' = c := by simpa [opened] using first
      decide

/-- A line without the blanks at its ends stands in the text between blanks or at its ends. -/
theorem exists_of_mem_map_trim (mem : line ∈ (lines t).map trim) :
    ∃ before after, t = before ++ line ++ after ∧ IsSetOff before after := by
  obtain ⟨l, inside, rfl⟩ := List.mem_map.1 mem
  obtain ⟨before, after, eq, setOff⟩ := exists_of_mem_lines inside
  obtain ⟨front, back, eq', blank, blank'⟩ := exists_trim l
  refine ⟨before ++ front, back ++ after, ?_, ⟨fun c last => ?_, fun c first => ?_⟩⟩
  · calc t = before ++ (front ++ trim l ++ back) ++ after := by rw [← eq', eq]
      _ = before ++ front ++ trim l ++ (back ++ after) := by simp only [List.append_assoc]
  · rw [List.getLast?_append, Option.mem_def, Option.or_eq_some_iff] at last
    rcases last with last | ⟨-, last⟩
    · exact blank c (List.mem_of_getLast? last)
    · exact setOff.before c last
  · rw [List.head?_append, Option.mem_def, Option.or_eq_some_iff] at first
    rcases first with first | ⟨-, first⟩
    · exact blank' c (List.mem_of_head? first)
    · exact setOff.after c first

theorem trim_sublist (t : Text) : (trim t).Sublist t := by
  have start : (trimStart t).Sublist t := List.dropWhile_sublist _
  refine List.Sublist.trans ?_ start
  rw [trim, trimEnd, ← List.reverse_sublist, List.reverse_reverse]
  exact List.dropWhile_sublist _

/-- The trimmed lines of a text are the text without some blanks. -/
theorem join_map_trim_sublist (t : Text) : (join ['\n'] ((lines t).map trim)).Sublist t := by
  have pieces : ∀ ls : List Text, (join ['\n'] (ls.map trim)).Sublist (join ['\n'] ls) := by
    intro ls
    induction ls with
    | nil => exact .slnil
    | cons l ls ih =>
      cases ls with
      | nil => simpa [join] using trim_sublist l
      | cons l' ls =>
        rw [join, join, List.map_cons, List.map_cons, List.intercalate_cons_cons,
          List.intercalate_cons_cons]
        exact ((trim_sublist l).append_right _).append ih
  have whole := pieces (lines t)
  rwa [join_lines_self] at whole

end RulesText.Text
