import Mathlib.Data.List.Basic
import RulesText.Proofs.Regex.Escapes

/-!
# What classes are read from

A class in brackets is read up to the bracket that closes it. Its items look ahead, but not past
a closing bracket, so what comes behind the class does not matter.

## Main definitions

* `Regex.Shares`: two texts are the same up to a closing bracket.
-/

namespace RulesText.Regex

variable {t u r w rest name : Text}

/-- Two texts are the same up to a closing bracket and with it. -/
def Shares (t u : Text) : Prop :=
  ∃ m s s', t = m ++ ']' :: s ∧ u = m ++ ']' :: s'

namespace Shares

theorem append (w : Text) (h : Shares t u) : Shares (w ++ t) (w ++ u) := by
  obtain ⟨m, s, s', rfl, rfl⟩ := h
  exact ⟨w ++ m, s, s', by simp, by simp⟩

theorem head? (h : Shares t u) : t.head? = u.head? := by
  obtain ⟨m, s, s', rfl, rfl⟩ := h
  cases m <;> rfl

theorem ne_nil (h : Shares t u) : u ≠ [] := by
  obtain ⟨m, s, s', -, rfl⟩ := h
  simp

theorem tail {c d : Char} (h : Shares (c :: t) (d :: u)) (inside : c ≠ ']') : Shares t u := by
  obtain ⟨m, s, s', eq, eq'⟩ := h
  cases m with
  | nil => exact absurd (List.cons.inj eq).1 inside
  | cons e m => exact ⟨m, s, s', (List.cons.inj eq).2, (List.cons.inj eq').2⟩

end Shares

/-! ## Items -/

theorem takes_readItem? {e : Escape} (h : readItem? false t = some (e, rest))
    (noLook : ∀ l, e ≠ .look l) : ∃ w, t = w ++ rest ∧ w ≠ [] ∧ Takes (readItem? false) w e := by
  unfold readItem? at h
  split at h
  · cases h
  · obtain ⟨w, rfl, -, -, takes⟩ := takes_readEscape? h
    exact ⟨'\\' :: w, rfl, by simp, fun u => takes u fun l eq => absurd eq (noLook l)⟩
  · rename_i c _ other
    obtain ⟨rfl, rfl⟩ := Prod.mk.inj (Option.some.inj h)
    refine ⟨[c], rfl, by simp, fun u => ?_⟩
    simp [readItem?]

theorem not_look_of_set? {e : Escape} {set : CharSet} (h : e.set? = some set) :
    ∀ l, e ≠ .look l := by
  rintro l rfl
  cases h

theorem not_look_of_char? {e : Escape} {c : Char} (h : e.char? = some c) : ∀ l, e ≠ .look l := by
  rintro l rfl
  cases h

theorem takes_readRange? {set : CharSet} (h : readRange? false t = some (set, rest)) :
    ∃ w, t = w ++ rest ∧ w ≠ [] ∧
      ∀ u, Shares rest u → readRange? false (w ++ u) = some (set, u) := by
  rw [readRange?] at h
  obtain ⟨⟨first, behind⟩, read, h⟩ := Option.bind_eq_some_iff.1 h
  dsimp only [ignore_false] at h
  split at h
  · rename_i after
    split at h
    · -- The hyphen is before a closing bracket or another hyphen.
      rename_i single
      obtain ⟨value, eq, h⟩ := Option.bind_eq_some_iff.1 h
      obtain ⟨rfl, rfl⟩ := Prod.mk.inj (Option.some.inj h)
      obtain ⟨w, rfl, nonempty, takes⟩ := takes_readItem? read (not_look_of_set? eq)
      refine ⟨w, rfl, nonempty, fun u shares => ?_⟩
      obtain ⟨u, rfl⟩ : ∃ u', u = '-' :: u' := by
        cases u with
        | nil => exact absurd rfl shares.ne_nil
        | cons c u => exact ⟨u, by simpa using shares.head?.symm⟩
      have same := (shares.tail (by decide)).head?
      rw [readRange?, takes]
      simp_all
    · rename_i range
      obtain ⟨⟨last, rest'⟩, readLast, h⟩ := Option.bind_eq_some_iff.1 h
      obtain ⟨lo, loEq, h⟩ := Option.bind_eq_some_iff.1 h
      obtain ⟨hi, hiEq, h⟩ := Option.bind_eq_some_iff.1 h
      split at h
      · rename_i ordered
        obtain ⟨rfl, rfl⟩ := Prod.mk.inj (Option.some.inj h)
        obtain ⟨w, rfl, nonempty, takes⟩ := takes_readItem? read (not_look_of_char? loEq)
        obtain ⟨w', rfl, nonempty', takes'⟩ := takes_readItem? readLast (not_look_of_char? hiEq)
        refine ⟨w ++ '-' :: w', by simp, by simp, fun u _ => ?_⟩
        have := takes' u
        obtain ⟨c, w', rfl⟩ := List.exists_cons_of_ne_nil nonempty'
        rw [readRange?, List.append_assoc, takes]
        simp_all
      · cases h
  · rename_i other
    obtain ⟨value, eq, h⟩ := Option.bind_eq_some_iff.1 h
    obtain ⟨rfl, rfl⟩ := Prod.mk.inj (Option.some.inj h)
    obtain ⟨w, rfl, nonempty, takes⟩ := takes_readItem? read (not_look_of_set? eq)
    refine ⟨w, rfl, nonempty, fun u shares => ?_⟩
    rw [readRange?, takes]
    have := shares.head?
    cases u with
    | nil => exact absurd rfl shares.ne_nil
    | cons c u =>
      have : c ≠ '-' := by
        rintro rfl
        obtain ⟨after, eq⟩ := List.head?_eq_some_iff.1 this
        exact other after eq
      simp_all

/-! ## Named classes -/

theorem notMem_of_namedRanges? {set : CharSet} (h : namedRanges? name = some set) :
    ']' ∉ name := by
  unfold namedRanges? at h
  dsimp only at h
  split at h
  case h_15 => cases h
  all_goals
    rename_i eq
    rw [String.toList_ofList.symm.trans (congrArg String.toList eq)]
    decide

theorem takeWhile_cut {c : Char} (new : c ∉ w) (rest : Text) :
    (w ++ c :: rest).takeWhile (· != c) = w ∧
      (w ++ c :: rest).dropWhile (· != c) = c :: rest := by
  refine span_append (fun d mem => ?_) (by simp)
  simpa using fun eq : d = c => new (eq ▸ mem)

theorem cut_of_dropWhile {c : Char} (h : t.dropWhile (· != c) = c :: rest) :
    t = t.takeWhile (· != c) ++ c :: rest ∧ c ∉ t.takeWhile (· != c) := by
  refine ⟨by rw [← h, List.takeWhile_append_dropWhile], fun mem => ?_⟩
  simpa using List.all_eq_true.1 List.all_takeWhile c mem

/-- A named class, after its colon and its caret if it has one. -/
def readName? (negated : Bool) (t : Text) : Option (CharSet × Text) :=
  match t.dropWhile (· != ':') with
  | ':' :: ']' :: after =>
    (namedRanges? (t.takeWhile (· != ':'))).map (.bracket negated ·, after)
  | _ => none

theorem readNamed?_caret (t : Text) : readNamed? (':' :: '^' :: t) = readName? true t := rfl

theorem readNamed?_colon (h : t.head? ≠ some '^') : readNamed? (':' :: t) = readName? false t := by
  cases t with
  | nil => rfl
  | cons c t =>
    have : c ≠ '^' := by simpa using h
    simp [readNamed?, this]
    rfl

theorem takes_readName? {negated : Bool} {set : CharSet}
    (h : readName? negated t = some (set, rest)) :
    ∃ w, t = w ++ ':' :: ']' :: rest ∧ ']' ∉ w ∧
      Takes (readName? negated) (w ++ [':', ']']) set := by
  unfold readName? at h
  split at h
  · rename_i after found
    obtain ⟨ranges, named, eq⟩ := Option.map_eq_some_iff.1 h
    obtain ⟨rfl, rfl⟩ := Prod.mk.inj eq
    obtain ⟨cut, new⟩ := cut_of_dropWhile found
    refine ⟨_, cut, notMem_of_namedRanges? named, fun u => ?_⟩
    obtain ⟨front, back⟩ := takeWhile_cut new (']' :: u)
    simp only [readName?, List.append_assoc, List.cons_append, List.nil_append, front, back,
      named, Option.map_some]
  · cases h

/-- There is no closing bracket inside a named class. -/
theorem takes_readNamed? {set : CharSet} (h : readNamed? t = some (set, rest)) :
    ∃ w, t = w ++ ']' :: rest ∧ ']' ∉ w ∧ Takes readNamed? (w ++ [']']) set := by
  cases t with
  | nil => cases h
  | cons c t =>
    obtain rfl : c = ':' := by
      by_contra other
      simp [readNamed?, other] at h
    by_cases caret : t.head? = some '^'
    · obtain ⟨t, rfl⟩ := List.head?_eq_some_iff.1 caret
      obtain ⟨w, rfl, open_, takes⟩ := takes_readName? h
      refine ⟨':' :: '^' :: w ++ [':'], by simp, by simpa using open_, fun u => ?_⟩
      have := takes u
      simpa [readNamed?_caret] using this
    · rw [readNamed?_colon caret] at h
      obtain ⟨w, rfl, open_, takes⟩ := takes_readName? h
      refine ⟨':' :: w ++ [':'], by simp, by simpa using open_, fun u => ?_⟩
      have := takes u
      have caret : (w ++ ':' :: ']' :: u).head? ≠ some '^' := by cases w <;> simp_all
      simpa [readNamed?_colon caret] using this

/-- What is before the first closing bracket of a text is shared. -/
theorem Shares.exists_of_notMem (h : Shares t (w ++ ']' :: rest)) (new : ']' ∉ w) :
    ∃ more, t = w ++ ']' :: more := by
  obtain ⟨m, s, s', rfl, eq⟩ := h
  rcases List.append_eq_append_iff.1 eq with ⟨a, rfl, behind⟩ | ⟨a, rfl, behind⟩
  · cases a with
    | nil => exact ⟨s, by rw [List.append_nil]⟩
    | cons c a =>
      obtain rfl := (List.cons.inj behind).1
      exact ⟨a ++ ']' :: s, by simp⟩
  · cases a with
    | nil => exact ⟨s, by rw [List.append_nil]⟩
    | cons c a =>
      obtain rfl := (List.cons.inj behind).1
      simp at new

/-- No named class comes up or gets lost by a change behind a closing bracket. -/
theorem readNamed?_eq_none (shares : Shares t u) (h : readNamed? t = none) :
    readNamed? u = none := by
  by_contra some
  obtain ⟨⟨set, rest⟩, read⟩ := Option.ne_none_iff_exists'.1 some
  obtain ⟨w, rfl, closed, takes⟩ := takes_readNamed? read
  obtain ⟨more, rfl⟩ := shares.exists_of_notMem closed
  have := takes more
  simp_all

/-! ## Steps -/

/-- The hyphens at the start of a class end before any other character. -/
theorem takes_readHyphens {n : Nat} {items : List BracketItem}
    (h : readHyphens false n t = (items, rest)) (enough : t.length ≤ n) :
    ∃ w, t = w ++ rest ∧ (∀ c ∈ w, c = '-') ∧ ∀ n u, (w ++ u).length ≤ n →
      u.head? = rest.head? → readHyphens false n (w ++ u) = (items, u) := by
  induction n generalizing t items with
  | zero =>
    obtain rfl := List.length_eq_zero_iff.1 (Nat.le_zero.1 enough)
    obtain ⟨rfl, rfl⟩ := Prod.mk.inj h
    refine ⟨[], rfl, by simp, fun n u _ same => ?_⟩
    obtain rfl : u = [] := by simpa using same
    cases n <;> rfl
  | succ n ih =>
    by_cases hyphen : ∃ t', t = '-' :: t'
    · obtain ⟨t, rfl⟩ := hyphen
      obtain ⟨rfl, rfl⟩ := Prod.mk.inj h
      obtain ⟨w, eq, all, takes⟩ := ih rfl (by simpa using enough)
      refine ⟨'-' :: w, congrArg ('-' :: ·) eq, by simpa using all, fun n u length same => ?_⟩
      obtain ⟨n, rfl⟩ := Nat.exists_eq_succ_of_ne_zero (n := n) (by rintro rfl; simp at length)
      have inner := takes n u (by simpa using length) same
      rw [ignore_false] at inner
      simp only [List.cons_append, readHyphens, ignore_false, inner]
    · have stop (n : Nat) {u : Text} (same : u.head? = t.head?) :
          readHyphens false n u = ([], u) := by
        cases n with
        | zero => cases u <;> rfl
        | succ n =>
          unfold readHyphens
          split
          · exact absurd (List.head?_eq_some_iff.1 same.symm) hyphen
          · rfl
      obtain ⟨rfl, rfl⟩ := Prod.mk.inj ((stop (n + 1) rfl).symm.trans h)
      exact ⟨[], rfl, by simp, fun n u _ same => stop n same⟩

/-- The start of a class after its caret. -/
def openItems (negated : Bool) (t : Text) : Bracket × Text :=
  match t with
  | ']' :: rest => ({ negated, items := [{ set := .range ']' ']' }] }, rest)
  | t =>
    let (items, rest) := readHyphens false t.length t
    ({ negated, items }, rest)

theorem openItems_eq {negated : Bool} (h : t.head? ≠ some ']') :
    openItems negated t = ({ negated, items := (readHyphens false t.length t).1 },
      (readHyphens false t.length t).2) := by
  unfold openItems
  split
  · simp at h
  · rfl

theorem openBracket_eq (h : t.head? ≠ some '^') : openBracket false t = openItems false t := by
  unfold openBracket
  rw [ignore_false]
  split
  · rename_i eq
    split at eq
    · simp at h
    · obtain ⟨rfl, rfl⟩ := Prod.mk.inj eq
      rfl

theorem head?_append_congr (w : Text) (h : u.head? = rest.head?) :
    (w ++ u).head? = (w ++ rest).head? := by
  cases w <;> simp [h]

theorem takes_openItems {negated : Bool} {b : Bracket} (h : openItems negated t = (b, rest)) :
    ∃ w, t = w ++ rest ∧
      ∀ u, u.head? = rest.head? → openItems negated (w ++ u) = (b, u) := by
  by_cases bracket : t.head? = some ']'
  · obtain ⟨t, rfl⟩ := List.head?_eq_some_iff.1 bracket
    obtain ⟨rfl, rfl⟩ := Prod.mk.inj h
    exact ⟨[']'], rfl, fun u _ => rfl⟩
  · rw [openItems_eq bracket] at h
    obtain ⟨rfl, rfl⟩ := Prod.mk.inj h
    obtain ⟨w, eq, -, takes⟩ := takes_readHyphens (t := t) rfl (Nat.le_refl _)
    refine ⟨w, eq, fun u same => ?_⟩
    have bracket : (w ++ u).head? ≠ some ']' := by rwa [head?_append_congr w same, ← eq]
    rw [openItems_eq bracket, takes _ u (Nat.le_refl _) same]

theorem takes_openBracket {b : Bracket} (h : openBracket false t = (b, rest)) :
    ∃ w, t = w ++ rest ∧
      ∀ u, u.head? = rest.head? → openBracket false (w ++ u) = (b, u) := by
  by_cases caret : t.head? = some '^'
  · obtain ⟨t, rfl⟩ := List.head?_eq_some_iff.1 caret
    obtain ⟨w, rfl, takes⟩ := takes_openItems h
    exact ⟨'^' :: w, rfl, takes⟩
  · rw [openBracket_eq caret] at h
    obtain ⟨w, rfl, takes⟩ := takes_openItems h
    refine ⟨w, rfl, fun u same => ?_⟩
    rw [openBracket_eq (by rwa [head?_append_congr w same]), takes u same]

theorem exists_cons_of_append {c : Char} (nonempty : w ≠ []) (h : w ++ u = c :: r) (rest : Text) :
    ∃ r, w ++ rest = c :: r := by
  obtain ⟨d, w, rfl⟩ := List.exists_cons_of_ne_nil nonempty
  exact ⟨w ++ rest, congrArg (· :: _) (List.cons.inj h).1⟩

theorem exists_cons_cons_of_append {c d : Char} (nonempty : w ≠ []) (same : u.head? = rest.head?)
    (h : w ++ u = c :: d :: r) : ∃ r, w ++ rest = c :: d :: r := by
  obtain ⟨e, w, rfl⟩ := List.exists_cons_of_ne_nil nonempty
  obtain ⟨rfl, behind⟩ := List.cons.inj h
  have second : (w ++ rest).head? = some d :=
    (head?_append_congr w same).symm.trans (congrArg List.head? behind)
  obtain ⟨r, eq⟩ := List.head?_eq_some_iff.1 second
  exact ⟨r, congrArg (e :: ·) eq⟩

/-- The next step in a class does not depend on what is behind the class. -/
theorem takes_readStep? {step : BracketStep} (h : readStep? false t = some (step, rest)) :
    ∃ w, t = w ++ rest ∧ w ≠ [] ∧
      ∀ u, Shares rest u → readStep? false (w ++ u) = some (step, u) := by
  unfold readStep? at h
  rw [ignore_false] at h
  split at h
  case h_1 | h_2 | h_3 | h_4 =>
    obtain ⟨rfl, rfl⟩ := Prod.mk.inj (Option.some.inj h)
    first
    | exact ⟨[_], rfl, by simp, fun u _ => rfl⟩
    | exact ⟨[_, _], rfl, by simp, fun u _ => rfl⟩
  case h_5 inner =>
    split at h
    · rename_i set after named
      obtain ⟨rfl, rfl⟩ := Prod.mk.inj (Option.some.inj h)
      obtain ⟨w, rfl, -, takes⟩ := takes_readNamed? named
      refine ⟨'[' :: w ++ [']'], by simp, by simp, fun u _ => ?_⟩
      have := takes u
      simp_all [readStep?]
    · rename_i unnamed
      cases opened : openBracket false inner with
      | mk b after =>
        rw [opened] at h
        obtain ⟨rfl, rfl⟩ := Prod.mk.inj (Option.some.inj h)
        obtain ⟨w, rfl, takes⟩ := takes_openBracket opened
        refine ⟨'[' :: w, rfl, by simp, fun u shares => ?_⟩
        have := takes u shares.head?.symm
        have := readNamed?_eq_none (shares.append w) unnamed
        simp_all [readStep?]
  case h_6 =>
    obtain ⟨⟨set, after⟩, read, eq⟩ := Option.map_eq_some_iff.1 h
    obtain ⟨rfl, rfl⟩ := Prod.mk.inj eq
    obtain ⟨w, rfl, nonempty, takes⟩ := takes_readRange? read
    refine ⟨w, rfl, nonempty, fun u shares => ?_⟩
    have same := shares.head?.symm
    unfold readStep?
    rw [ignore_false]
    split
    case h_6 => rw [takes u shares, Option.map_some]
    all_goals rename_i eq
    case h_1 | h_5 =>
      obtain ⟨r, eq⟩ := exists_cons_of_append nonempty eq after
      simp_all only [List.cons.injEq]
      grind
    all_goals
      obtain ⟨r, eq⟩ := exists_cons_cons_of_append nonempty same eq
      simp_all

theorem of_readStep?_close (h : readStep? false t = some (.close, rest)) : t = ']' :: rest := by
  unfold readStep? at h
  rw [ignore_false] at h
  split at h
  case h_1 => exact congrArg (']' :: ·) (Prod.mk.inj (Option.some.inj h)).2
  case h_5 => split at h <;> cases h
  case h_6 =>
    obtain ⟨⟨set, after⟩, read, eq⟩ := Option.map_eq_some_iff.1 h
    cases eq
  all_goals cases h

/-! ## Classes -/

theorem progress?_eq_some {α : Type} {x : Option (α × Text)} {a : α}
    {r : { rest : Text // rest.length < t.length }} :
    Text.progress? t x = some (a, r) ↔ x = some (a, r.1) := by
  unfold Text.progress?
  split
  · rename_i b rest
    constructor
    · intro h
      split at h
      · obtain ⟨rfl, rfl⟩ := Prod.mk.inj (Option.some.inj h)
        rfl
      · cases h
    · intro h
      obtain ⟨rfl, rfl⟩ := Prod.mk.inj (Option.some.inj h)
      rw [dif_pos r.2]
  · simp

/-- The class that is read after a step and those around it, unless the step closes the last. -/
def BracketStep.next? (step : BracketStep) (current : Bracket) (outer : List Bracket) :
    Option (Bracket × List Bracket) :=
  match step, outer with
  | .close, [] => none
  | .close, around :: outer => some (around.add current.close, outer)
  | .operation o, outer => some (current.apply o, outer)
  | .add set, outer => some (current.add { set }, outer)
  | .nested inner, outer => some (inner, current :: outer)

theorem readBracket?_eq {step : BracketStep} (h : readStep? false t = some (step, r))
    (less : r.length < t.length) (current : Bracket) (outer : List Bracket) :
    readBracket? false current outer t =
      match step.next? current outer with
      | none => some (current.close, r)
      | some (current, outer) => readBracket? false current outer r := by
  have progress : Text.progress? t (readStep? false t) = some (step, ⟨r, less⟩) :=
    progress?_eq_some.2 h
  rw [readBracket?, progress]
  cases step <;> cases outer <;> rfl

theorem takes_readBracket? {current : Bracket} {outer : List Bracket} {item : BracketItem}
    (h : readBracket? false current outer t = some (item, rest)) :
    ∃ w, t = w ++ ']' :: rest ∧ Takes (readBracket? false current outer) (w ++ [']']) item := by
  generalize length : t.length = n
  induction n using Nat.strongRecOn generalizing t current outer with
  | _ n ih =>
    obtain ⟨step, r, less, read⟩ : ∃ step r, r.length < t.length ∧
        readStep? false t = some (step, r) := by
      rw [readBracket?] at h
      cases progress : Text.progress? t (readStep? false t) with
      | none => simp [progress] at h
      | some result => exact ⟨result.1, result.2.1, result.2.2, progress?_eq_some.1 progress⟩
    rw [readBracket?_eq read less] at h
    cases next : step.next? current outer with
    | none =>
      obtain rfl : step = .close := by
        cases step <;> first | rfl | cases next
      rw [next] at h
      obtain ⟨rfl, rfl⟩ := Prod.mk.inj (Option.some.inj h)
      obtain rfl := of_readStep?_close read
      refine ⟨[], rfl, fun u => ?_⟩
      have read : readStep? false (']' :: u) = some (.close, u) := rfl
      rw [List.nil_append, List.singleton_append, readBracket?_eq read (by simp), next]
    | some classes =>
      rw [next] at h
      obtain ⟨w', rfl, takes'⟩ := ih _ (length ▸ less) h rfl
      obtain ⟨w, rfl, nonempty, takes⟩ := takes_readStep? read
      refine ⟨w ++ w', by simp, fun u => ?_⟩
      have step := takes (w' ++ ']' :: u) ⟨w', rest, u, rfl, rfl⟩
      have less : (w' ++ ']' :: u).length < (w ++ (w' ++ ']' :: u)).length := by
        rw [@List.length_append _ w]
        exact Nat.lt_add_of_pos_left (List.length_pos_of_ne_nil nonempty)
      have inner := takes' u
      rw [List.append_assoc, List.singleton_append] at inner
      rw [List.append_assoc, List.append_assoc, List.singleton_append, readBracket?_eq step less,
        next]
      exact inner

theorem takes_readClass? {item : BracketItem} (h : readClass? false t = some (item, rest)) :
    ∃ w, t = w ++ ']' :: rest ∧ Takes (readClass? false) (w ++ [']']) item := by
  rw [readClass?] at h
  cases opened : openBracket false t with
  | mk b inner =>
    rw [opened] at h
    obtain ⟨w, rfl, takes⟩ := takes_openBracket opened
    obtain ⟨w', rfl, takes'⟩ := takes_readBracket? h
    refine ⟨w ++ w', by simp, fun u => ?_⟩
    have same : (w' ++ ']' :: u).head? = (w' ++ ']' :: rest).head? := by cases w' <;> rfl
    have inner := takes' u
    rw [List.append_assoc, List.singleton_append] at inner
    rw [List.append_assoc, List.append_assoc, List.singleton_append, readClass?, takes _ same]
    exact inner

end RulesText.Regex
