import RulesText.Proofs.Card.Marking

/-!
# Names that are left in the normal form

Names are marked before runs of spaces and tabs become single spaces. So a line in normal form
can have a name of the card only where the text has a stretch that is no name and becomes one with
its spacing. No mark makes a name of what stands beside it, since the boundary that the mark brings
was there before it.

## Main definitions

* `Card.HasTrueEdges`: a name whose edges tell of its word characters.

## Main statements

* `Card.exists_of_occursIn`: where a name that is left is from.
-/

namespace RulesText.Card

open Text (isWordChar)

variable {name n t u front back p q line : Text} {inRun before stripReminders : Bool} {x : Char}
  {r : Regex.Searcher} {c : Cursor} {m : Match}

/-! ## Single spaces -/

theorem isWordChar_of_isSpaceOrTab (blank : isSpaceOrTab x) : isWordChar x = false := by
  simp only [isSpaceOrTab, Bool.or_eq_true, beq_iff_eq] at blank
  rcases blank with rfl | rfl <;> decide

/-- What stands behind a place is a word character in the text with single spaces just when it is
one in the text itself. -/
theorem head?_collapseSpaces (t : Text) :
    (collapseSpaces false t).head?.any isWordChar = t.head?.any isWordChar := by
  cases t with
  | nil => rfl
  | cons c rest =>
    rw [collapseSpaces]
    split
    · rename_i blank
      simp [isWordChar_of_isSpaceOrTab blank]
      decide
    · rfl

theorem elim_getLast?_cons (f : Char → Bool) (x : Char) (t : Text) (before : Bool) :
    (x :: t).getLast?.elim before f = t.getLast?.elim (f x) f := by
  cases t <;> rfl

/-- A character that is no space stands in the text itself, behind a word character or not as it
does with single spaces. -/
theorem exists_of_collapseSpaces_eq (eq : collapseSpaces inRun t = p ++ x :: q) (ne : x ≠ ' ')
    (start : inRun → before = false) : ∃ front back, t = front ++ x :: back ∧
      collapseSpaces false back = q ∧
      front.getLast?.elim before isWordChar = p.getLast?.elim before isWordChar := by
  fun_induction collapseSpaces inRun t generalizing p before with
  | case1 => simp at eq
  | case2 c rest blank ih =>
    obtain rfl := start rfl
    obtain ⟨front, back, rfl, collapsed, same⟩ := ih eq start
    refine ⟨c :: front, back, rfl, collapsed, ?_⟩
    rwa [elim_getLast?_cons, isWordChar_of_isSpaceOrTab blank]
  | case3 inRun c rest blank ends ih =>
    cases p with
    | nil => exact absurd (List.cons.inj eq).1.symm ne
    | cons y p =>
      obtain ⟨rfl, later⟩ := List.cons.inj eq
      obtain ⟨front, back, rfl, collapsed, same⟩ := ih later fun _ => rfl
      refine ⟨c :: front, back, rfl, collapsed, ?_⟩
      rwa [elim_getLast?_cons, elim_getLast?_cons, isWordChar_of_isSpaceOrTab blank,
        isWordChar_of_isSpaceOrTab (rfl : isSpaceOrTab ' ')]
  | case4 inRun c rest other ih =>
    cases p with
    | nil =>
      obtain ⟨rfl, rest⟩ := List.cons.inj eq
      exact ⟨[], _, rfl, rest, rfl⟩
    | cons y p =>
      obtain ⟨rfl, later⟩ := List.cons.inj eq
      obtain ⟨front, back, rfl, collapsed, same⟩ := ih later fun run => by cases run
      refine ⟨c :: front, back, rfl, collapsed, ?_⟩
      rwa [elim_getLast?_cons, elim_getLast?_cons]

/-- A stretch of the text with single spaces that does not end in one is a stretch of the text with
other spacing. -/
theorem exists_append_of_collapseSpaces (eq : collapseSpaces inRun t = u ++ q) (nonempty : u ≠ [])
    (last : u.getLast? ≠ some ' ') : ∃ front back, t = front ++ back ∧
      collapseSpaces inRun front = u ∧ collapseSpaces false back = q := by
  fun_induction collapseSpaces inRun t generalizing u with
  | case1 => simp_all
  | case2 c rest blank ih =>
    obtain ⟨front, back, rfl, collapsed, others⟩ := ih eq nonempty last
    refine ⟨c :: front, back, rfl, ?_, others⟩
    rwa [collapseSpaces, if_pos blank]
  | case3 inRun c rest blank ends ih =>
    obtain ⟨y, u, rfl⟩ := List.exists_cons_of_ne_nil nonempty
    obtain ⟨rfl, later⟩ := List.cons.inj eq
    have more : u ≠ [] := fun none => last (by rw [none]; rfl)
    obtain ⟨front, back, rfl, collapsed, others⟩ := ih later more
      (by rwa [List.getLast?_cons_of_ne_nil more] at last)
    refine ⟨c :: front, back, rfl, ?_, others⟩
    rw [collapseSpaces, if_pos blank, if_neg ends, collapsed]
  | case4 inRun c rest other ih =>
    obtain ⟨y, u, rfl⟩ := List.exists_cons_of_ne_nil nonempty
    obtain ⟨rfl, later⟩ := List.cons.inj eq
    by_cases more : u = []
    · subst more
      exact ⟨[c], rest, rfl, by rw [collapseSpaces, if_neg other]; rfl, later⟩
    · obtain ⟨front, back, rfl, collapsed, others⟩ := ih later more
        (by rwa [List.getLast?_cons_of_ne_nil more] at last)
      refine ⟨c :: front, back, rfl, ?_, others⟩
      rw [collapseSpaces, if_neg other, collapsed]

/-- A stretch of the text with single spaces, without spaces at its ends, is a stretch of the text
with other spacing, between word characters or not as it is there. -/
theorem exists_infix_of_collapseSpaces (eq : collapseSpaces false t = p ++ n ++ q) (ne : n ≠ [])
    (trimmed : n.IsTrimmed) : ∃ front u back, t = front ++ u ++ back ∧ collapseSpaces false u = n ∧
      front.getLast?.any isWordChar = p.getLast?.any isWordChar ∧
      back.head?.any isWordChar = q.head?.any isWordChar := by
  have elim : ∀ o : Option Char, o.elim false isWordChar = o.any isWordChar := by
    rintro (_ | _) <;> rfl
  obtain ⟨x, n, rfl⟩ := List.exists_cons_of_ne_nil ne
  have first : ¬isSpaceOrTab x := fun blank => by
    have nonblank := trimmed.first x rfl
    simp only [isSpaceOrTab, Bool.or_eq_true, beq_iff_eq] at blank
    rcases blank with rfl | rfl <;> cases nonblank
  have last : (x :: n).getLast? ≠ some ' ' := fun space => by
    cases trimmed.last ' ' space
  rw [List.append_assoc] at eq
  obtain ⟨front, back, rfl, collapsed, before⟩ :=
    exists_of_collapseSpaces_eq eq (fun space => first (by rw [space]; rfl)) (fun _ => rfl)
  have rest : collapseSpaces false (x :: back) = (x :: n) ++ q := by
    rw [collapseSpaces, if_neg first, collapsed]
    rfl
  obtain ⟨u, back', eq', own, others⟩ := exists_append_of_collapseSpaces rest ne last
  refine ⟨front, u, back', ?_, own, ?_, ?_⟩
  · rw [eq', List.append_assoc]
  · rwa [elim, elim] at before
  · rw [← others, head?_collapseSpaces]

/-! ## Names behind marks -/

/-- The edges of a name tell of a word character at each end that has one. -/
structure HasTrueEdges (n : Text) : Prop where
  leading : n.head?.any isWordChar → Edge.leading (Regex.escape n) = .word
  trailing : n.getLast?.any isWordChar → Edge.trailing (Regex.escape n) = .word

/-- What stands without a mark where names are marked stands in the text. -/
theorem infix_of_markSelf (named : selfReference? name = some r) (ne : u ≠ [])
    (unmarked : '~' ∉ u) (eq : markSelf name t = front ++ u ++ back) : u <:+: t := by
  rw [markSelf_eq named] at eq
  obtain ⟨d, e, copied, through, -⟩ :=
    Regex.Searcher.exists_stretch (reaches_of_matchAt? named) eq ne unmarked
  have place : d.IsPlace t := (Cursor.isPlace_start t).reaches copied.reaches
  exact ⟨d.behind.reverse, e.ahead, by rw [List.append_assoc, ← through.ahead, place.text]⟩

theorem any_mark : (some '~').any isWordChar = false := by decide

/-- Where a word character follows a name that is replaced, the name does not end in one. -/
theorem behindIs_of_replaced (named : selfReference? name = some r)
    (edges : ∀ n ∈ names name, HasTrueEdges n) (place : c.IsPlace t) (replaced : r.Replaced c m)
    (word : m.stop.aheadIs isWordChar) : m.stop.behindIs isWordChar = false := by
  obtain ⟨n, mem, ne, stop, after, ahead, bounded⟩ := exists_of_replaced named place replaced
  have rest : m.stop.ahead = after := stop ▸ Cursor.ahead_past ahead
  have last : m.stop.behindIs isWordChar = n.getLast?.any isWordChar := by
    rw [stop]
    exact behindIs_of_behind rfl ne _
  rw [last, Bool.eq_false_iff]
  intro ends
  refine bounded.trailing ((edges n mem).trailing ends) ?_
  rw [ends, ← rest, ← Cursor.aheadIs, word]

/-- Where a word character is before a name that is replaced, the name does not begin with one. -/
theorem aheadIs_of_replaced (named : selfReference? name = some r)
    (edges : ∀ n ∈ names name, HasTrueEdges n) (place : c.IsPlace t) (replaced : r.Replaced c m)
    (word : c.behindIs isWordChar) : c.aheadIs isWordChar = false := by
  obtain ⟨n, mem, ne, stop, after, ahead, bounded⟩ := exists_of_replaced named place replaced
  have first : c.aheadIs isWordChar = n.head?.any isWordChar := by
    rw [Cursor.aheadIs, ahead, List.head?_append_of_ne_nil _ ne]
  rw [first, Bool.eq_false_iff]
  intro begins
  refine bounded.leading ((edges n mem).leading begins) ?_
  rw [begins, word]

/-- A boundary before a place where names are marked is there in the text. If a name was replaced
up to the place, the boundary is where the next word begins. -/
theorem behindIs_ne_of_copiedTo (named : selfReference? name = some r)
    (edges : ∀ n ∈ names name, HasTrueEdges n) (copied : r.CopiedTo '~' (.start t) front c)
    (differ : front.getLast?.any isWordChar ≠ c.aheadIs isWordChar) :
    c.behindIs isWordChar ≠ c.aheadIs isWordChar := by
  by_cases start : front = []
  · rw [copied.start start] at differ ⊢
    rwa [start] at differ
  · rcases copied.behind start with same | ⟨mark, b, m, reaches, replaced, rfl⟩
    · rwa [Cursor.behindIs, ← same]
    · rw [mark, any_mark] at differ
      have begins : m.stop.aheadIs isWordChar = true := by simpa using differ.symm
      have place := (Cursor.isPlace_start t).reaches reaches
      rw [behindIs_of_replaced named edges place replaced begins, begins]
      exact Bool.false_ne_true

/-- A boundary behind a place where names are marked is there in the text. If a name was replaced
from the place on, the boundary is where the last word ends. -/
theorem behindIs_ne_of_replaceFrom (named : selfReference? name = some r)
    (edges : ∀ n ∈ names name, HasTrueEdges n) (place : c.IsPlace t)
    (differ : c.behindIs isWordChar ≠ (r.replaceFrom ['~'] c).head?.any isWordChar) :
    c.behindIs isWordChar ≠ c.aheadIs isWordChar := by
  rcases Regex.Searcher.head?_replaceFrom r '~' c with same | ⟨mark, m, replaced⟩
  · rwa [same] at differ
  · rw [mark, any_mark] at differ
    have ends : c.behindIs isWordChar = true := by simpa using differ
    rw [ends, aheadIs_of_replaced named edges place replaced ends]
    exact Bool.false_ne_true.symm

/-- Where names are marked, none is left between boundaries. -/
theorem not_isBounded_of_markSelf (edges : ∀ n ∈ names name, HasTrueEdges n)
    (mem : n ∈ names name) (unmarked : '~' ∉ n) (eq : markSelf name t = front ++ n ++ back) :
    ¬IsBounded n (front.getLast?.any isWordChar) (back.head?.any isWordChar) := by
  intro bounded
  have ne := (isName_of_mem mem).ne
  obtain ⟨r, named⟩ : ∃ r, selfReference? name = some r :=
    ⟨_, selfReference?_eq (List.ne_nil_of_mem mem)⟩
  rw [markSelf_eq named] at eq
  obtain ⟨d, e, copied, through, unreplaced, rest⟩ :=
    Regex.Searcher.exists_stretch (reaches_of_matchAt? named) eq ne unmarked
  have place : d.IsPlace t := (Cursor.isPlace_start t).reaches copied.reaches
  have first : d.aheadIs isWordChar = n.head?.any isWordChar := by
    rw [Cursor.aheadIs, through.ahead, List.head?_append_of_ne_nil _ ne]
  have last : e.behindIs isWordChar = n.getLast?.any isWordChar :=
    behindIs_of_behind through.behind ne _
  have inText : IsBounded n (d.behindIs isWordChar) (e.ahead.head?.any isWordChar) := by
    refine ⟨fun word => ?_, fun word => ?_⟩
    · have differ := bounded.leading word
      rw [← first] at differ ⊢
      exact behindIs_ne_of_copiedTo named edges copied differ
    · have differ := bounded.trailing word
      rw [← last, ← rest] at differ
      rw [← last]
      exact behindIs_ne_of_replaceFrom named edges (place.reaches ⟨n, through⟩) differ
  obtain ⟨m, replaced⟩ := exists_replaced named place mem
    ((standsAt_iff ne).2 ⟨e.ahead, through.ahead, inText⟩)
  exact unreplaced m replaced

/-! ## Names in lines -/

/-- What is before a stretch of a line and behind it is a word character just when it is one in
the text around the line. -/
theorem isSetOff_any (setOff : Text.IsSetOff front back) (p q : Text) :
    (front ++ p).getLast?.any isWordChar = p.getLast?.any isWordChar ∧
      (q ++ back).head?.any isWordChar = q.head?.any isWordChar := by
  constructor
  · rcases List.eq_nil_or_concat p with rfl | ⟨p, c, rfl⟩
    · cases last : front.getLast? with
      | none => simp [last]
      | some c => simp [last, Text.isWordChar_of_isBlank (setOff.before c last)]
    · simp
  · cases q with
    | nil =>
      cases first : back.head? with
      | none => simp [first]
      | some c => simp [first, Text.isWordChar_of_isBlank (setOff.after c first)]
    | cons c q => simp

/-- A name that is found in a line in normal form is from a stretch of the text that is no name
before runs of spaces and tabs become single spaces. -/
theorem exists_of_occursIn (unmarked : '~' ∉ name) (edges : ∀ n ∈ names name, HasTrueEdges n)
    (mem : line ∈ normalLines name t stripReminders) (named : selfReference? name = some r)
    (occurs : r.occursIn line) : ∃ n ∈ names name, n <:+: line ∧
      ∃ u, u <:+: kept t stripReminders ∧ u ≠ n ∧ collapseSpaces false u = n := by
  obtain ⟨c, place, n, own, stands⟩ := (occursIn_iff named).1 occurs
  have known := isName_of_mem own
  have single := notMem_of_mem_names unmarked own
  obtain ⟨q, ahead, bounded⟩ := (standsAt_iff known.ne).1 stands
  obtain ⟨before, after, collapsed, setOff⟩ := Text.exists_of_mem_map_trim mem
  have whole : line = c.behind.reverse ++ n ++ q := by
    rw [← place.text, ahead, List.append_assoc]
  obtain ⟨front, u, back, marked, spaced, before', after'⟩ := exists_infix_of_collapseSpaces
    (p := before ++ c.behind.reverse) (n := n) (q := q ++ after)
    (by rw [collapsed, whole]; simp only [List.append_assoc]) known.ne known.trimmed
  refine ⟨n, own, ⟨_, q, whole.symm⟩, u, ?_, ?_, spaced⟩
  · have nonempty : u ≠ [] := fun none => known.ne (by rw [← spaced, none]; rfl)
    refine infix_of_markSelf named nonempty (fun inside => single ?_) marked
    have filtered := filter_collapseSpaces (f := (· == '~')) rfl rfl false u
    rw [spaced] at filtered
    exact (List.mem_filter.1 (filtered ▸ List.mem_filter.2 ⟨inside, rfl⟩)).1
  · rintro rfl
    refine not_isBounded_of_markSelf edges own single marked ?_
    obtain ⟨outer, outer'⟩ := isSetOff_any setOff c.behind.reverse q
    rw [before', after', outer, outer', List.getLast?_reverse]
    exact bounded

theorem names_lightningBolt : names "Lightning Bolt" = [("lightning bolt" : Text)] := by
  decide +kernel

theorem normalLines_lightningBolt :
    normalLines "Lightning Bolt" "Lightning  Bolt deals 3 damage" false =
      [("lightning bolt deals 3 damage" : Text)] := by
  decide +kernel

theorem exists_occursIn_lightningBolt : ∃ r, selfReference? "Lightning Bolt" = some r ∧
    r.occursIn "lightning bolt deals 3 damage" := by
  have mem : ("lightning bolt" : Text) ∈ names "Lightning Bolt" := by
    rw [names_lightningBolt]
    exact List.mem_singleton_self _
  have named := selfReference?_eq (List.ne_nil_of_mem mem)
  exact ⟨_, named, (occursIn_iff named).2
    ⟨Cursor.start _, Cursor.isPlace_start _, "lightning bolt", mem, by decide +kernel⟩⟩

/-- A name with two spaces in it is no name of the card, and becomes one. -/
theorem exists_of_occursIn_lightningBolt : ∃ r, selfReference? "Lightning Bolt" = some r ∧
    r.occursIn "lightning bolt deals 3 damage" ∧
    ∃ n ∈ names "Lightning Bolt", n <:+: "lightning bolt deals 3 damage" ∧
      ∃ u, u <:+: kept "Lightning  Bolt deals 3 damage" false ∧ u ≠ n ∧
        collapseSpaces false u = n := by
  obtain ⟨r, named, occurs⟩ := exists_occursIn_lightningBolt
  have edges : ∀ n ∈ names "Lightning Bolt", HasTrueEdges n := by
    intro n mem
    rw [names_lightningBolt, List.mem_singleton] at mem
    subst mem
    exact ⟨by decide +kernel, by decide +kernel⟩
  refine ⟨r, named, occurs, exists_of_occursIn (by decide) edges ?_ named occurs⟩
  rw [normalLines_lightningBolt]
  exact List.mem_singleton_self _

/-- Lines in normal form can have names of the card that are not marked. -/
theorem not_forall_normalLines : ¬∀ (name t : Text) (stripReminders : Bool), '~' ∉ name →
    ∀ line ∈ normalLines name t stripReminders, ∀ r, selfReference? name = some r →
      ¬r.occursIn line := by
  intro none
  obtain ⟨r, named, occurs⟩ := exists_occursIn_lightningBolt
  refine none "Lightning Bolt" "Lightning  Bolt deals 3 damage" false (by decide)
    "lightning bolt deals 3 damage" ?_ r named occurs
  rw [normalLines_lightningBolt]
  exact List.mem_singleton_self _

end RulesText.Card
