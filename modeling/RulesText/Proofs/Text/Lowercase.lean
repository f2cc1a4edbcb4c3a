import Mathlib.Data.List.Basic
import RulesText.Proofs.Text.Blanks
import RulesText.Proofs.Text.Lines
import RulesText.Text.Lowercase

/-!
# Lower case

Lowering a text twice is lowering it once: no character that a character becomes has a lower case
of its own. Nor does lowering make a blank or a tilde of another character.

## Main definitions

* `Text.isLowered`: a character that is its own lower case wherever it stands.
* `Text.LowersTo`: what a character may become.

## Main statements

* `Text.exists_of_mem_lowercase`: where a character of the lower case is from.
* `Text.lowercase_eq_self`: lower case of a text in lower case.
-/

namespace RulesText.Text

variable {c d : Char} {t : Text} {n : Nat}

/-! ## The runs of capitals -/

namespace CodeShift

variable {s r : CodeShift}

/-- No code point that the run moves to is one that the other run covers. The ends are compared
first, since most runs are far from each other. -/
def isApartFrom (s r : CodeShift) : Bool :=
  r.last < (Int.ofNat s.first + s.shift).toNat || (Int.ofNat s.last + s.shift).toNat < r.first ||
    s.images.all (!r.covers ·)

theorem covers_iff :
    s.covers n ↔ s.first ≤ n ∧ n ≤ s.last ∧ (n - s.first) % s.step = 0 := by
  simp only [covers, Bool.and_eq_true, decide_eq_true_eq, beq_iff_eq, and_assoc]

theorem mem_images (covers : s.covers n) : (Int.ofNat n + s.shift).toNat ∈ s.images := by
  obtain ⟨first, last, whole⟩ := covers_iff.1 covers
  refine List.mem_map.2 ⟨n, List.mem_map.2 ⟨(n - s.first) / s.step, ?_, ?_⟩, rfl⟩
  · exact List.mem_range.2 (Nat.lt_succ_of_le (Nat.div_le_div_right (by omega)))
  · rw [Nat.div_mul_cancel (Nat.dvd_of_mod_eq_zero whole)]
    omega

theorem not_covers_of_isApartFrom (apart : s.isApartFrom r) (covers : s.covers n) :
    r.covers (Int.ofNat n + s.shift).toNat = false := by
  obtain ⟨first, last, -⟩ := covers_iff.1 covers
  have low : (Int.ofNat s.first + s.shift).toNat ≤ (Int.ofNat n + s.shift).toNat :=
    Int.toNat_le_toNat (Int.add_le_add_right (Int.ofNat_le.2 first) _)
  have high : (Int.ofNat n + s.shift).toNat ≤ (Int.ofNat s.last + s.shift).toNat :=
    Int.toNat_le_toNat (Int.add_le_add_right (Int.ofNat_le.2 last) _)
  rw [isApartFrom, Bool.or_eq_true, Bool.or_eq_true, decide_eq_true_eq, decide_eq_true_eq,
    List.all_eq_true] at apart
  rcases apart with (above | below) | none
  · refine Bool.eq_false_iff.2 fun other => ?_
    have := (covers_iff.1 other).2.1
    omega
  · refine Bool.eq_false_iff.2 fun other => ?_
    have := (covers_iff.1 other).1
    omega
  · simpa using none _ (mem_images covers)

/-- A code that is no character's reads as zero. -/
theorem toNat_ofNat_eq (n : Nat) : (Char.ofNat n).toNat = n ∨ (Char.ofNat n).toNat = 0 := by
  by_cases valid : n.isValidChar
  · rw [Char.ofNat, dif_pos valid]
    exact .inl rfl
  · rw [Char.ofNat, dif_neg valid]
    exact .inr rfl

/-- What a run moves a character to is not covered by a run apart from it. -/
theorem not_covers_of_image? (image : s.image? c = some d) (apart : s.isApartFrom r)
    (positive : 0 < r.first) : r.covers d.toNat = false := by
  unfold image? at image
  split at image
  · obtain rfl := Option.some.inj image
    rcases toNat_ofNat_eq (Int.ofNat c.toNat + s.shift).toNat with eq | eq
    · exact (congrArg r.covers eq).trans (not_covers_of_isApartFrom apart ‹_›)
    · refine (congrArg r.covers eq).trans (Bool.eq_false_iff.2 fun covers => ?_)
      exact Nat.not_lt.2 (covers_iff.1 covers).1 positive
  · cases image

end CodeShift

/-- The characters that no character may become, as runs: the blanks, the tilde, and the capitals
that have rules of their own. -/
def keptRuns : List CodeShift :=
  [⟨0x9, 0xD, 1, 0⟩, ⟨0x20, 0x20, 1, 0⟩, ⟨0x85, 0x85, 1, 0⟩, ⟨0xA0, 0xA0, 1, 0⟩,
    ⟨0x1680, 0x1680, 1, 0⟩, ⟨0x2000, 0x200A, 1, 0⟩, ⟨0x2028, 0x2029, 1, 0⟩,
    ⟨0x202F, 0x202F, 1, 0⟩, ⟨0x205F, 0x205F, 1, 0⟩, ⟨0x3000, 0x3000, 1, 0⟩,
    ⟨0x7E, 0x7E, 1, 0⟩, ⟨0x41, 0x5A, 1, 0⟩, ⟨0x130, 0x130, 1, 0⟩, ⟨0x3A3, 0x3A3, 1, 0⟩]

theorem isApartFrom_of_mem {s r : CodeShift} (mem : s ∈ lowercaseShifts)
    (other : r ∈ keptRuns ++ lowercaseShifts) : s.isApartFrom r ∧ 0 < r.first := by
  have all : lowercaseShifts.all fun s => (keptRuns ++ lowercaseShifts).all fun r =>
      s.isApartFrom r && decide (0 < r.first) := by decide +kernel
  simpa using List.all_eq_true.1 (List.all_eq_true.1 all s mem) r other

/-- What a run moves a character to is covered by no run. -/
theorem not_covers_of_findSome? (found : lowercaseShifts.findSome? (·.image? c) = some d)
    {r : CodeShift} (mem : r ∈ keptRuns ++ lowercaseShifts) : r.covers d.toNat = false := by
  obtain ⟨s, run, image⟩ := List.exists_of_findSome?_eq_some found
  obtain ⟨apart, positive⟩ := isApartFrom_of_mem run mem
  exact CodeShift.not_covers_of_image? image apart positive

theorem exists_covers_of_isBlank (blank : isBlank c) : ∃ r ∈ keptRuns, r.covers c.toNat := by
  have all : blanks.all fun c => keptRuns.any (·.covers c.toNat) := by decide
  simpa using of_isBlank (p := fun c => keptRuns.any (·.covers c.toNat)) all blank

/-! ## Characters -/

/-- The character is its own lower case wherever it stands. -/
def isLowered (c : Char) : Bool :=
  c != 'Σ' && lowercaseChar c == [c]

/-- A blank or a tilde. -/
def isKept (c : Char) : Bool :=
  isBlank c || c == '~'

/-- What a character may become: characters in lower case, none of them a blank or a tilde that it
is not itself. -/
structure LowersTo (c : Char) (piece : Text) : Prop where
  ne : piece ≠ []
  lowered : ∀ d ∈ piece, isLowered d
  kept : ∀ d ∈ piece, isKept d → d = c

theorem lowersTo_singleton (lowered : isLowered d) (kept : isKept d → d = c) :
    LowersTo c [d] where
  ne := List.cons_ne_nil d []
  lowered := fun _ mem => List.mem_singleton.1 mem ▸ lowered
  kept := fun _ mem => List.mem_singleton.1 mem ▸ kept

theorem lowersTo_of_all (ne : t ≠ []) (all : t.all fun d => isLowered d && !isKept d) :
    LowersTo c t := by
  have own : ∀ d ∈ t, isLowered d ∧ isKept d = false := by simpa using all
  exact ⟨ne, fun d mem => (own d mem).1, fun d mem kept => absurd kept (by simp [own d mem])⟩

theorem lowersTo_toLower (ascii : isAscii c) : LowersTo c [c.toLower] := by
  have all : ∀ n < 128, isLowered (Char.ofNat n).toLower ∧
      (isKept (Char.ofNat n).toLower → (Char.ofNat n).toLower = Char.ofNat n) := by decide
  have own := all c.toNat (of_decide_eq_true ascii)
  rw [Char.ofNat_toNat] at own
  exact lowersTo_singleton own.1 own.2

/-- A character that no run covers is no capital, no blank and no tilde. -/
theorem of_not_covers (uncovered : ∀ r ∈ keptRuns ++ lowercaseShifts, r.covers c.toNat = false) :
    isLowered c ∧ isKept c = false := by
  have apart : ∀ r ∈ keptRuns, ¬r.covers c.toNat := fun r mem =>
    Bool.eq_false_iff.1 (uncovered r (List.mem_append_left _ mem))
  have ne : ∀ d : Char, (∃ r ∈ keptRuns, r.covers d.toNat) → c ≠ d := by
    rintro d ⟨r, mem, covers⟩ rfl
    exact apart r mem covers
  have small : c.toLower = c := dif_neg fun upper =>
    apart ⟨0x41, 0x5A, 1, 0⟩ (by simp [keptRuns])
      (CodeShift.covers_iff.2 ⟨upper.1, upper.2, Nat.mod_one _⟩)
  have unmoved : lowercaseShifts.findSome? (·.image? c) = none := by
    refine List.findSome?_eq_none_iff.2 fun r mem => ?_
    rw [CodeShift.image?, uncovered r (List.mem_append_right _ mem)]
    rfl
  have itself : lowercaseChar c = [c] := by
    rw [lowercaseChar, unmoved, small]
    simp [ne 'İ' (by decide)]
  have unblank : ¬isBlank c := fun blank => by
    obtain ⟨r, mem, covers⟩ := exists_covers_of_isBlank blank
    exact apart r mem covers
  constructor
  · simp [isLowered, itself, ne 'Σ' (by decide)]
  · simp [isKept, unblank, ne '~' (by decide)]

theorem lowersTo_lowercaseChar (c : Char) (ne : c ≠ 'Σ') : LowersTo c (lowercaseChar c) := by
  fun_cases lowercaseChar c with
  | case1 ascii => exact lowersTo_toLower ascii
  | case2 => exact lowersTo_of_all (List.cons_ne_nil _ _) (by decide +kernel)
  | case3 foreign other =>
    cases found : lowercaseShifts.findSome? (·.image? c) with
    | some d =>
      have own := of_not_covers fun _ => not_covers_of_findSome? found
      exact lowersTo_of_all (List.cons_ne_nil _ _) (by simp [own])
    | none =>
      refine lowersTo_singleton ?_ fun _ => rfl
      simp [isLowered, lowercaseChar, ne, foreign, other, found]

/-! ## Texts -/

theorem exists_lowercaseFrom_cons (behind : Text) (c : Char) (rest : Text) :
    ∃ piece, LowersTo c piece ∧
      lowercaseFrom behind (c :: rest) = piece ++ lowercaseFrom (c :: behind) rest := by
  refine ⟨_, ?_, by rw [lowercaseFrom]⟩
  by_cases sigma : c = 'Σ'
  · subst sigma
    simp only [BEq.rfl, if_true]
    split <;> exact lowersTo_of_all (List.cons_ne_nil _ _) (by decide +kernel)
  · simpa [sigma] using lowersTo_lowercaseChar c sigma

/-- A character of the lower case is from a character of the text. -/
theorem exists_of_mem_lowercase (mem : d ∈ lowercase t) :
    ∃ c ∈ t, ∃ piece, LowersTo c piece ∧ d ∈ piece := by
  have all : ∀ rest behind, d ∈ lowercaseFrom behind rest →
      ∃ c ∈ rest, ∃ piece, LowersTo c piece ∧ d ∈ piece := by
    intro rest
    induction rest with
    | nil => nofun
    | cons c rest ih =>
      intro behind mem
      obtain ⟨piece, lowers, eq⟩ := exists_lowercaseFrom_cons behind c rest
      rw [eq, List.mem_append] at mem
      rcases mem with own | later
      · exact ⟨c, List.mem_cons_self, piece, lowers, own⟩
      · obtain ⟨c', inside, found⟩ := ih _ later
        exact ⟨c', List.mem_cons_of_mem c inside, found⟩
  exact all t [] mem

theorem isLowered_of_mem_lowercase (mem : d ∈ lowercase t) : isLowered d := by
  obtain ⟨c, -, piece, lowers, own⟩ := exists_of_mem_lowercase mem
  exact lowers.lowered d own

theorem mem_of_mem_lowercase (kept : isKept d) (mem : d ∈ lowercase t) : d ∈ t := by
  obtain ⟨c, inside, piece, lowers, own⟩ := exists_of_mem_lowercase mem
  exact lowers.kept d own kept ▸ inside

/-- A text in lower case is its own lower case. -/
theorem lowercase_eq_self (lowered : ∀ c ∈ t, isLowered c) : lowercase t = t := by
  have all : ∀ rest : Text, (∀ c ∈ rest, isLowered c) →
      ∀ behind, lowercaseFrom behind rest = rest := by
    intro rest lowered
    induction rest with
    | nil => exact fun _ => rfl
    | cons c rest ih =>
      intro behind
      have own := lowered c List.mem_cons_self
      rw [isLowered, Bool.and_eq_true, bne_iff_ne, beq_iff_eq] at own
      rw [lowercaseFrom, ih fun d mem => lowered d (List.mem_cons_of_mem c mem)]
      simp [own]
  exact all t lowered []

theorem lowercase_lowercase (t : Text) : lowercase (lowercase t) = lowercase t :=
  lowercase_eq_self fun _ => isLowered_of_mem_lowercase

/-! ## Ends -/

theorem head?_lowercase (kept : isKept d) (first : (lowercase t).head? = some d) :
    t.head? = some d := by
  cases t with
  | nil => cases first
  | cons c rest =>
    obtain ⟨piece, lowers, eq⟩ := exists_lowercaseFrom_cons [] c rest
    rw [lowercase, eq, List.head?_append_of_ne_nil _ lowers.ne] at first
    rw [List.head?_cons, lowers.kept d (List.mem_of_mem_head? first) kept]

theorem getLast?_lowercase (kept : isKept d) (last : (lowercase t).getLast? = some d) :
    t.getLast? = some d := by
  have all : ∀ rest behind, (lowercaseFrom behind rest).getLast? = some d →
      rest.getLast? = some d := by
    intro rest
    induction rest with
    | nil => nofun
    | cons c rest ih =>
      intro behind last
      obtain ⟨piece, lowers, eq⟩ := exists_lowercaseFrom_cons behind c rest
      rw [eq, List.getLast?_append, Option.or_eq_some_iff] at last
      rcases last with later | ⟨none, own⟩
      · rw [List.getLast?_cons, ih _ later]
        rfl
      · have ends : rest = [] := by
          cases rest with
          | nil => rfl
          | cons c' rest' =>
            obtain ⟨piece', lowers', eq'⟩ := exists_lowercaseFrom_cons (c :: behind) c' rest'
            rw [eq', List.getLast?_eq_none_iff, List.append_eq_nil_iff] at none
            exact absurd none.1 lowers'.ne
        rw [ends, lowers.kept d (List.mem_of_getLast? own) kept]
        rfl
  exact all t [] last

theorem IsTrimmed.lowercase (trimmed : t.IsTrimmed) : (lowercase t).IsTrimmed where
  first := fun d first => Bool.eq_false_iff.2 fun blank => by
    have same := head?_lowercase (by simp [isKept, blank]) first
    simp [trimmed.first d same] at blank
  last := fun d last => Bool.eq_false_iff.2 fun blank => by
    have same := getLast?_lowercase (by simp [isKept, blank]) last
    simp [trimmed.last d same] at blank

end RulesText.Text
