import RulesText.Proofs.Regex.Classes

/-!
# What lexemes are read from

A lexeme that keeps the flags as they are is read from the characters that it takes, and in the
same way before any text that can stand in the place of what follows it.

## Main definitions

* `Regex.Lexeme.KeepsFlags`: a lexeme that changes no flags.
* `Regex.Lexeme.name?`: the name of the group that a lexeme opens.
-/

namespace RulesText.Regex

variable {t u r w rest name : Text} {lexeme : Lexeme}

namespace Lexeme

def KeepsFlags : Lexeme → Prop
  | openGroup change => change = []
  | setFlags _ => False
  | _ => True

instance : DecidablePred KeepsFlags
  | openGroup change => inferInstanceAs (Decidable (change = []))
  | setFlags _ => isFalse id
  | char _ | byte _ | set _ | bracket _ | dot | caret | dollar | look _ | count _ _ _ | branch
  | openCapture _ | close => isTrue trivial

/-- The name of the group that is opened. -/
def name? : Lexeme → Option Text
  | openCapture name? => name?
  | _ => none

end Lexeme

/-! ## Groups -/

theorem readFlags?_cons {found : FlagChange} {on hyphen : Bool} (c : Char) (t : Text) :
    readFlags? found on hyphen (c :: t) =
      if c == ':' || c == ')' then if hyphen then none else some (found.reverse, c :: t)
      else if c == '-' then if on then readFlags? found false true t else none
      else (Flag.ofChar? c).bind fun flag =>
        if found.any (·.1 == flag) then none else readFlags? ((flag, on) :: found) on false t := by
  rw [readFlags?]
  rfl

theorem length_le_of_readFlags? {found change : FlagChange} {on hyphen : Bool}
    (h : readFlags? found on hyphen t = some (change, rest)) : found.length ≤ change.length := by
  induction t generalizing found on hyphen with
  | nil => cases h
  | cons c t ih =>
    rw [readFlags?_cons] at h
    split at h
    · split at h
      · cases h
      · obtain ⟨rfl, -⟩ := Prod.mk.inj (Option.some.inj h)
        simp
    · split at h
      · split at h
        · exact ih h
        · cases h
      · obtain ⟨flag, -, h⟩ := Option.bind_eq_some_iff.1 h
        split at h
        · cases h
        · exact Nat.le_of_succ_le (ih h)

/-- Where no flags are set there is nothing before the colon. -/
theorem eq_of_readFlags?_nil {hyphen : Bool} (h : readFlags? [] true hyphen t = some ([], rest)) :
    t = rest := by
  have no_flag {flag : Flag × Bool} {on hyphen : Bool} {t : Text} :
      readFlags? [flag] on hyphen t ≠ some ([], rest) :=
    fun h => absurd (length_le_of_readFlags? h) (by simp)
  cases t with
  | nil => cases h
  | cons c t =>
    rw [readFlags?_cons] at h
    split at h
    · split at h
      · cases h
      · exact (Prod.mk.inj (Option.some.inj h)).2
    · split at h
      · -- Behind a hyphen there has to be a flag.
        rw [if_pos rfl] at h
        cases t with
        | nil => cases h
        | cons d t =>
          rw [readFlags?_cons] at h
          split at h
          · cases h
          · split at h
            · cases h
            · obtain ⟨flag, -, h⟩ := Option.bind_eq_some_iff.1 h
              exact absurd h no_flag
      · obtain ⟨flag, -, h⟩ := Option.bind_eq_some_iff.1 h
        exact absurd h no_flag

theorem takes_readGroupName? (h : readGroupName? t = some (name, rest)) :
    t = name ++ '>' :: rest ∧ Takes readGroupName? (name ++ ['>']) name := by
  unfold readGroupName? at h
  split at h
  · rename_i c inner after front back
    split at h
    · rename_i valid
      obtain ⟨rfl, rfl⟩ := Prod.mk.inj (Option.some.inj h)
      obtain ⟨cut, new⟩ := cut_of_dropWhile back
      rw [front] at cut new
      refine ⟨cut, fun u => ?_⟩
      have := takeWhile_cut new u
      simp_all [readGroupName?]
    · cases h
  · cases h

/-- How a group can start. -/
inductive GroupStart : Text → Lexeme → Text → Prop
  | capture {t : Text} (h : t.head? ≠ some '?') : GroupStart t (.openCapture none) t
  | group (t : Text) : GroupStart ('?' :: ':' :: t) (.openGroup []) t
  | named {w name t : Text} (angle : '<' ∈ w)
    (takes : Takes readGroup? (w ++ ['>']) (.openCapture (some name))) :
    GroupStart (w ++ '>' :: t) (.openCapture (some name)) t

theorem groupStart_of_readGroup? (h : readGroup? t = some (lexeme, rest))
    (keeps : lexeme.KeepsFlags) : GroupStart t lexeme rest := by
  unfold readGroup? at h
  split at h
  · obtain ⟨⟨name, after⟩, read, eq⟩ := Option.map_eq_some_iff.1 h
    obtain ⟨rfl, rfl⟩ := Prod.mk.inj eq
    obtain ⟨rfl, takes⟩ := takes_readGroupName? read
    refine .named (w := '?' :: 'P' :: '<' :: name) (by simp) fun u => ?_
    have := takes u
    simp_all [readGroup?]
  · obtain ⟨⟨name, after⟩, read, eq⟩ := Option.map_eq_some_iff.1 h
    obtain ⟨rfl, rfl⟩ := Prod.mk.inj eq
    obtain ⟨rfl, takes⟩ := takes_readGroupName? read
    refine .named (w := '?' :: '<' :: name) (by simp) fun u => ?_
    have := takes u
    simp_all [readGroup?]
  · split at h
    · rename_i change after flags
      obtain ⟨rfl, rfl⟩ := Prod.mk.inj (Option.some.inj h)
      obtain rfl : change = [] := keeps
      obtain rfl := eq_of_readFlags?_nil flags
      exact .group after
    · split at h
      · cases h
      · obtain ⟨rfl, -⟩ := Prod.mk.inj (Option.some.inj h)
        cases keeps
    · cases h
  · rename_i other
    obtain ⟨rfl, rfl⟩ := Prod.mk.inj (Option.some.inj h)
    refine .capture fun question => ?_
    obtain ⟨t, rfl⟩ := List.head?_eq_some_iff.1 question
    exact other t rfl

theorem readGroup?_capture (h : t.head? ≠ some '?') :
    readGroup? t = some (.openCapture none, t) := by
  unfold readGroup?
  split
  case h_4 => rfl
  all_goals simp at h

/-! ## Counts -/

theorem readDigits_eq (t : Text) :
    readDigits false false t = (t.takeWhile Char.isDigit, t.dropWhile Char.isDigit) := by
  induction t with
  | nil => rfl
  | cons c t ih =>
    rw [readDigits, ih]
    by_cases digit : c.isDigit = true <;> simp [digit]

theorem not_isDigit_of_isBlank {c : Char} (h : Text.isBlank c = true) : c.isDigit = false := by
  by_contra digit
  simp only [Text.isBlank, Bool.or_eq_true, Bool.and_eq_true, decide_eq_true_eq, beq_iff_eq,
    Char.le_def, UInt32.le_iff_toNat_le] at h
  simp only [Char.isDigit, Bool.not_eq_false, Bool.and_eq_true, decide_eq_true_eq, ge_iff_le,
    UInt32.le_iff_toNat_le] at digit
  change 48 ≤ c.val.toNat ∧ c.val.toNat ≤ 57 at digit
  rcases h with ((((((((((low | rfl) | rfl) | rfl) | rfl) | high) | rfl) | rfl) | rfl) | rfl) | rfl)
  all_goals first
  | exact absurd digit (by decide)
  | skip
  · change 9 ≤ c.val.toNat ∧ c.val.toNat ≤ 13 at low
    omega
  · change 8192 ≤ c.val.toNat ∧ c.val.toNat ≤ 8202 at high
    omega

theorem readNumber?_append {before digits after : Text}
    (blank : ∀ c ∈ before, Text.isBlank c = true) (digit : ∀ c ∈ digits, c.isDigit = true)
    (nonempty : digits ≠ []) (small : Nat.ofDigitChars 10 digits 0 < UInt32.size)
    (blank' : ∀ c ∈ after, Text.isBlank c = true)
    (stop : ∀ c, u.head? = some c → c.isDigit = false ∧ Text.isBlank c = false) :
    readNumber? false (before ++ (digits ++ (after ++ u))) =
      some (Nat.ofDigitChars 10 digits 0, u) := by
  have last := span_append blank' fun c eq => (stop c eq).2
  have middle := span_append (u := after ++ u) digit fun c eq => by
    cases after with
    | nil => exact (stop c eq).1
    | cons d after =>
      obtain rfl := Option.some.inj eq
      exact not_isDigit_of_isBlank (blank' d List.mem_cons_self)
  have first := span_append (u := digits ++ (after ++ u)) blank fun c eq => by
    obtain ⟨d, digits, rfl⟩ := List.exists_cons_of_ne_nil nonempty
    obtain rfl := Option.some.inj eq
    by_contra blank
    have := not_isDigit_of_isBlank (by simpa using blank)
    simp_all
  simp only [readNumber?, ignore_false, readDigits_eq, first, middle, last]
  simp [nonempty, small]

/-- A number ends before a character that is neither a digit nor blank. -/
theorem takes_readNumber? {n : Nat} (h : readNumber? false t = some (n, rest)) :
    ∃ w, t = w ++ rest ∧
      ∀ u, (∀ c, u.head? = some c → c.isDigit = false ∧ Text.isBlank c = false) →
        readNumber? false (w ++ u) = some (n, u) := by
  have parts {p : Char → Bool} {t : Text} : t.takeWhile p ++ t.dropWhile p = t :=
    List.takeWhile_append_dropWhile
  have all {p : Char → Bool} {t : Text} : ∀ c ∈ t.takeWhile p, p c = true :=
    List.all_eq_true.1 List.all_takeWhile
  unfold readNumber? at h
  rw [ignore_false, readDigits_eq] at h
  dsimp only at h
  generalize behind_eq : t.dropWhile Text.isBlank = behind at h
  generalize after_eq : behind.dropWhile Char.isDigit = after at h
  split at h
  · cases h
  · rename_i valid
    obtain ⟨nonempty, small⟩ : behind.takeWhile Char.isDigit ≠ [] ∧
        Nat.ofDigitChars 10 (behind.takeWhile Char.isDigit) 0 < UInt32.size := by
      simpa using valid
    obtain ⟨rfl, rfl⟩ := Prod.mk.inj (Option.some.inj h)
    refine ⟨t.takeWhile Text.isBlank ++
      (behind.takeWhile Char.isDigit ++ after.takeWhile Text.isBlank), ?_, fun u stop => ?_⟩
    · rw [List.append_assoc, List.append_assoc, parts, ← after_eq, parts, ← behind_eq, parts]
    · rw [List.append_assoc, List.append_assoc]
      exact readNumber?_append all all nonempty small all stop

theorem takes_readBounds? {bounds : Nat × Option Nat}
    (h : readBounds? false t = some (bounds, rest)) :
    ∃ w, t = w ++ '}' :: rest ∧ Takes (readBounds? false) (w ++ ['}']) bounds := by
  have brace (u : Text) (c : Char) (eq : ('}' :: u).head? = some c) :
      c.isDigit = false ∧ Text.isBlank c = false := by
    obtain rfl := Option.some.inj eq
    decide
  have comma (u : Text) (c : Char) (eq : (',' :: u).head? = some c) :
      c.isDigit = false ∧ Text.isBlank c = false := by
    obtain rfl := Option.some.inj eq
    decide
  unfold readBounds? at h
  split at h
  · rename_i least after number
    obtain ⟨rfl, rfl⟩ := Prod.mk.inj (Option.some.inj h)
    obtain ⟨w, rfl, takes⟩ := takes_readNumber? number
    refine ⟨w, rfl, fun u => ?_⟩
    simp [readBounds?, takes _ (brace u)]
  · rename_i least after number
    obtain ⟨w, rfl, takes⟩ := takes_readNumber? number
    rw [ignore_false] at h
    split at h
    · obtain ⟨rfl, rfl⟩ := Prod.mk.inj (Option.some.inj h)
      refine ⟨w ++ [','], by simp, fun u => ?_⟩
      simp [readBounds?, takes _ (comma ('}' :: u))]
    · rename_i other
      split at h
      · rename_i most after' number'
        split at h
        · rename_i ordered
          obtain ⟨rfl, rfl⟩ := Prod.mk.inj (Option.some.inj h)
          obtain ⟨w', rfl, takes'⟩ := takes_readNumber? number'
          refine ⟨w ++ ',' :: w', by simp, fun u => ?_⟩
          have nonempty : w' ≠ [] := by
            rintro rfl
            exact other _ rfl
          have other (r : Text) : w' ++ '}' :: u ≠ '}' :: r := fun eq => by
            obtain ⟨r, eq⟩ := exists_cons_of_append nonempty eq _
            exact other r eq
          have number := takes _ (comma (w' ++ '}' :: u))
          have number' := takes' _ (brace u)
          rw [List.append_assoc, List.singleton_append, List.append_assoc, List.cons_append]
          simp only [readBounds?, number, ignore_false, number', if_pos ordered]
        · cases h
      · cases h
  · cases h

theorem takes_countLexeme {least : Nat} {most : Option Nat}
    (h : countLexeme least most t = (lexeme, rest)) :
    ∃ w, t = w ++ rest ∧ (w = [] ∨ w = ['?']) ∧
      ∀ u, Follows rest u → countLexeme least most (w ++ u) = (lexeme, u) := by
  unfold countLexeme at h
  split at h
  · obtain ⟨rfl, rfl⟩ := Prod.mk.inj h
    exact ⟨['?'], rfl, .inr rfl, fun u _ => rfl⟩
  · rename_i other
    obtain ⟨rfl, rfl⟩ := Prod.mk.inj h
    refine ⟨[], rfl, .inl rfl, fun u follows => ?_⟩
    rw [List.nil_append]
    unfold countLexeme
    split
    · obtain ⟨t, rfl⟩ := List.head?_eq_some_iff.1 (follows.question rfl)
      exact absurd rfl (other t)
    · rfl

theorem exists_countLexeme (least : Nat) (most : Option Nat) (t : Text) :
    ∃ lazy, (countLexeme least most t).1 = .count least most lazy := by
  unfold countLexeme
  split
  · exact ⟨true, rfl⟩
  · exact ⟨false, rfl⟩

/-! ## Lexemes -/

/-- A lexeme is read from the characters that it takes. A letter y at its end is all of it. -/
theorem takes_readLexeme? (h : readLexeme? false t = some (lexeme, rest))
    (keeps : lexeme.KeepsFlags) : ∃ w, t = w ++ rest ∧ w ≠ [] ∧
      (w.getLast? = some 'y' → w = ['y']) ∧
      ∀ u, Follows rest u → readLexeme? false (w ++ u) = some (lexeme, u) := by
  cases t with
  | nil => cases h
  | cons c t =>
    unfold readLexeme? at h
    dsimp only at h
    split at h
    case h_2 | h_3 | h_9 | h_10 | h_11 =>
      obtain ⟨rfl, rfl⟩ := Prod.mk.inj (Option.some.inj h)
      exact ⟨[_], rfl, by simp, by simp, fun u _ => rfl⟩
    -- The start of a group.
    case h_1 =>
      cases groupStart_of_readGroup? h keeps with
      | capture open_ =>
        refine ⟨['('], rfl, by simp, by simp, fun u follows => ?_⟩
        exact readGroup?_capture fun question => open_ (follows.question question)
      | group => exact ⟨['(', '?', ':'], rfl, by simp, by simp, fun u _ => rfl⟩
      | named angle takes =>
        rename_i w name
        refine ⟨'(' :: w ++ ['>'], by simp, by simp,
          fun last => absurd last (getLast?_snoc_ne (by decide)), fun u _ => ?_⟩
        have := takes u
        simp_all [readLexeme?]
    -- A class in brackets.
    case h_4 =>
      obtain ⟨⟨item, after⟩, read, eq⟩ := Option.map_eq_some_iff.1 h
      obtain ⟨rfl, rfl⟩ := Prod.mk.inj eq
      obtain ⟨w, rfl, takes⟩ := takes_readClass? read
      refine ⟨'[' :: w ++ [']'], by simp, by simp,
        fun last => absurd last (getLast?_snoc_ne (by decide)), fun u _ => ?_⟩
      have := takes u
      simp_all [readLexeme?]
    -- A count of one character, which a question mark can follow.
    case h_5 | h_6 | h_7 =>
      obtain ⟨w, rfl, shape, takes⟩ := takes_countLexeme (Option.some.inj h)
      refine ⟨_ :: w, rfl, by simp, ?_, fun u follows => ?_⟩
      · rcases shape with rfl | rfl <;> simp
      · exact congrArg some (takes u follows)
    -- A count in braces.
    case h_8 =>
      obtain ⟨⟨bounds, after⟩, read, eq⟩ := Option.map_eq_some_iff.1 h
      obtain ⟨w, rfl, takes⟩ := takes_readBounds? read
      obtain ⟨w', rfl, shape, takes'⟩ := takes_countLexeme eq
      refine ⟨('{' :: w ++ ['}']) ++ w', by simp, by simp, fun last => ?_, fun u follows => ?_⟩
      · rcases shape with rfl | rfl
        · rw [List.append_nil] at last
          exact absurd last (getLast?_snoc_ne (by decide))
        · exact absurd last (getLast?_snoc_ne (by decide))
      · have := takes (w' ++ u)
        have := takes' u follows
        simp_all [readLexeme?]
    -- A backslash with what it escapes.
    case h_12 =>
      cases read : readEscape? false t with
      | none => simp [read] at h
      | some result =>
        obtain ⟨e, after⟩ := result
        obtain ⟨w, rfl, nonempty, last, takes⟩ := takes_readEscape? read
        refine ⟨'\\' :: w, ?_, by simp, fun y => absurd y (getLast?_cons_ne (by decide) last),
          fun u follows => ?_⟩
        · cases e <;> simp_all
        · rw [read] at h
          have escape := takes u
          cases e <;> simp_all [readLexeme?]
    -- A character that stands for itself.
    case h_13 =>
      obtain ⟨rfl, rfl⟩ := Prod.mk.inj (Option.some.inj h)
      refine ⟨[c], rfl, by simp, by simp, fun u _ => ?_⟩
      simp_all [readLexeme?]

/-- Only an angle bracket can introduce the name of a group. -/
theorem angle_of_readLexeme? (h : readLexeme? false t = some (lexeme, rest))
    (keeps : lexeme.KeepsFlags) (named : lexeme.name? = some name) : '<' ∈ t := by
  cases t with
  | nil => cases h
  | cons c t =>
    unfold readLexeme? at h
    dsimp only at h
    have count {least : Nat} {most : Option Nat} {u : Text} :
        countLexeme least most u ≠ (lexeme, rest) := fun eq => by
      obtain ⟨lazy, count⟩ := exists_countLexeme least most u
      rw [eq] at count
      subst count
      cases named
    split at h
    case h_1 =>
      cases groupStart_of_readGroup? h keeps with
      | capture => cases named
      | group => cases named
      | named angle => exact List.mem_cons_of_mem _ (List.mem_append_left _ angle)
    case h_4 =>
      obtain ⟨_, -, eq⟩ := Option.map_eq_some_iff.1 h
      obtain ⟨rfl, -⟩ := Prod.mk.inj eq
      cases named
    case h_5 | h_6 | h_7 => exact absurd (Option.some.inj h) count
    case h_8 =>
      obtain ⟨_, -, eq⟩ := Option.map_eq_some_iff.1 h
      exact absurd eq count
    case h_12 =>
      split at h
      case h_5 => cases h
      all_goals
        obtain ⟨rfl, -⟩ := Prod.mk.inj (Option.some.inj h)
        cases named
    all_goals
      obtain ⟨rfl, -⟩ := Prod.mk.inj (Option.some.inj h)
      cases named

end RulesText.Regex
