import RulesText.Regex.Lexeme

/-!
# What escapes are read from

Outside verbose text, a reader of patterns looks at the characters that it takes and little more:
at a question mark behind a count, at the braces behind a word boundary. So what it takes is taken
in the same way before any other text that does not begin with one of these.

## Main definitions

* `Regex.Takes`: what a reader takes off the start of every text that begins with a given one.
* `Regex.Follows`: the texts that can stand in place of what follows.
-/

namespace RulesText.Regex

variable {α : Type} {t u w rest name : Text}

@[simp] theorem ignore_false (t : Text) : ignore false t = t := rfl

/-- The reader takes `w` for `a`, whatever comes after it. -/
def Takes (f : Text → Option (α × Text)) (w : Text) (a : α) : Prop :=
  ∀ u, f (w ++ u) = some (a, u)

/-- A text that can stand in the place of `rest`. A question mark or a brace at its start would
belong to what is before it, if there was none at that place. -/
structure Follows (rest u : Text) : Prop where
  question : u.head? = some '?' → rest.head? = some '?'
  brace : u.head? = some '{' → rest.take 2 = u.take 2

theorem getLast?_snoc_ne {c d : Char} (ne : c ≠ d) : (w ++ [c]).getLast? ≠ some d := by
  simp [ne]

theorem getLast?_cons_ne {c d : Char} (ne : c ≠ d) (h : w.getLast? ≠ some d) :
    (c :: w).getLast? ≠ some d := by
  cases w <;> simp_all

/-- The longest run of characters with a property ends where a character has it no more. -/
theorem span_append {p : Char → Bool} (all : ∀ c ∈ w, p c = true)
    (stop : ∀ c, u.head? = some c → p c = false) :
    (w ++ u).takeWhile p = w ∧ (w ++ u).dropWhile p = u := by
  rw [List.takeWhile_append_of_pos all, List.dropWhile_append_of_pos all]
  cases u with
  | nil => simp
  | cons c u => simp [stop c rfl]

/-! ## Braces and digits -/

theorem takes_readBraced? (h : readBraced? false false t = some (name, rest)) :
    ∃ w, t = w ++ '}' :: rest ∧ Takes (readBraced? false false) (w ++ ['}']) name := by
  induction t generalizing name with
  | nil => cases h
  | cons c t ih =>
    simp only [readBraced?, Bool.false_and, Bool.false_eq_true, if_false] at h
    split at h
    · rename_i closes
      obtain ⟨rfl, rfl⟩ := Prod.mk.inj (Option.some.inj h)
      obtain rfl : c = '}' := by simpa using closes
      exact ⟨[], rfl, fun u => rfl⟩
    · rename_i other
      obtain ⟨⟨name', rest'⟩, read, eq⟩ := Option.map_eq_some_iff.1 h
      obtain ⟨rfl, rfl⟩ := Prod.mk.inj eq
      obtain ⟨w, rfl, takes⟩ := ih read
      refine ⟨c :: w, rfl, fun u => ?_⟩
      have := takes u
      simp_all [readBraced?]

theorem takes_readChars? {n : Nat} {cs : Text} (h : readChars? false n t = some (cs, rest)) :
    t = cs ++ rest ∧ cs.length = n ∧ Takes (readChars? false n) cs cs := by
  induction n generalizing t cs with
  | zero =>
    obtain ⟨rfl, rfl⟩ := Prod.mk.inj (Option.some.inj h)
    exact ⟨rfl, rfl, fun u => rfl⟩
  | succ n ih =>
    cases t with
    | nil => cases h
    | cons c t =>
      obtain ⟨⟨cs', rest'⟩, read, eq⟩ := Option.map_eq_some_iff.1 h
      obtain ⟨rfl, rfl⟩ := Prod.mk.inj eq
      obtain ⟨eq, length, takes⟩ := ih read
      rw [ignore_false] at eq
      refine ⟨by rw [eq, List.cons_append], by rw [List.length_cons, length], fun u => ?_⟩
      simp [readChars?, takes u]

theorem isSome_of_mapM {α β : Type} {f : α → Option β} {l : List α} {l' : List β}
    (h : l.mapM f = some l') : ∀ a ∈ l, (f a).isSome := by
  induction l generalizing l' with
  | nil => simp
  | cons a l ih =>
    rw [List.mapM_cons] at h
    obtain ⟨b, first, h⟩ := Option.bind_eq_some_iff.1 h
    obtain ⟨bs, others, -⟩ := Option.bind_eq_some_iff.1 h
    exact List.forall_mem_cons.2 ⟨Option.isSome_iff_exists.2 ⟨b, first⟩, ih others⟩

/-- There are only hexadecimal digits in a hexadecimal number. -/
theorem hexDigit?_of_charOfHex? {digits : Text} {c : Char} (h : charOfHex? digits = some c) :
    ∀ d ∈ digits, (Text.hexDigit? d).isSome := by
  obtain ⟨n, number, -⟩ := Option.bind_eq_some_iff.1 h
  obtain ⟨values, all, -⟩ := Option.bind_eq_some_iff.1 number
  exact isSome_of_mapM all

theorem takes_readHex? {width : Nat} {c : Char} (wide : 0 < width)
    (h : readHex? false width t = some (c, rest)) :
    ∃ w, t = w ++ rest ∧ w ≠ [] ∧ w.getLast? ≠ some 'y' ∧ Takes (readHex? false width) w c := by
  rw [readHex?, ignore_false] at h
  split at h
  · rename_i inner
    obtain ⟨⟨digits, rest'⟩, read, h⟩ := Option.bind_eq_some_iff.1 h
    obtain ⟨value, eq, h⟩ := Option.bind_eq_some_iff.1 h
    obtain ⟨rfl, rfl⟩ := Prod.mk.inj (Option.some.inj h)
    obtain ⟨w, rfl, takes⟩ := takes_readBraced? read
    refine ⟨('{' :: w) ++ ['}'], by simp, by simp, getLast?_snoc_ne (by decide), fun u => ?_⟩
    have := takes u
    simp_all [readHex?]
  · rename_i other
    obtain ⟨⟨digits, rest'⟩, read, h⟩ := Option.bind_eq_some_iff.1 h
    obtain ⟨value, eq, h⟩ := Option.bind_eq_some_iff.1 h
    obtain ⟨rfl, rfl⟩ := Prod.mk.inj (Option.some.inj h)
    obtain ⟨rfl, length, takes⟩ := takes_readChars? read
    have nonempty : digits ≠ [] := List.ne_nil_of_length_pos (by omega)
    refine ⟨digits, rfl, nonempty, fun last => ?_, fun u => ?_⟩
    · have := hexDigit?_of_charOfHex? eq 'y' (List.mem_of_getLast? last)
      exact absurd this (by decide)
    · have := takes u
      obtain ⟨d, digits, rfl⟩ := List.exists_cons_of_ne_nil nonempty
      have : d ≠ '{' := fun eq => other _ (by rw [eq]; rfl)
      simp_all [readHex?]

/-! ## Boundaries and properties -/

/-- Without a name behind it, a boundary takes nothing. -/
theorem readBoundary?_of_unnamed (unnamed : ∀ inner, t = '{' :: inner →
    inner ≠ [] ∧ inner.head?.any isBoundaryNameChar = false) :
    readBoundary? false t = some (.boundary, t) := by
  unfold readBoundary?
  split
  · rename_i inner
    obtain ⟨nonempty, other⟩ := unnamed inner rfl
    simp [ignore_false, nonempty, other]
  · rfl

theorem takes_readBoundary? {l : WordLook} (h : readBoundary? false t = some (l, rest)) :
    ∃ w, t = w ++ rest ∧ w.getLast? ≠ some 'y' ∧
      ∀ u, Follows rest u → readBoundary? false (w ++ u) = some (l, u) := by
  unfold readBoundary? at h
  split at h
  · rename_i inner
    rw [ignore_false] at h
    split at h
    · rename_i named
      obtain ⟨⟨name, rest'⟩, read, h⟩ := Option.bind_eq_some_iff.1 h
      obtain ⟨look, eq, h⟩ := Option.bind_eq_some_iff.1 h
      obtain ⟨rfl, rfl⟩ := Prod.mk.inj (Option.some.inj h)
      obtain ⟨w, rfl, takes⟩ := takes_readBraced? read
      refine ⟨('{' :: w) ++ ['}'], by simp, getLast?_snoc_ne (by decide), fun u _ => ?_⟩
      have := takes u
      have : ((w ++ '}' :: u).head?.any isBoundaryNameChar) = true := by
        cases w <;> simpa using named
      simp_all [readBoundary?]
    · rename_i unnamed
      split at h
      · cases h
      · rename_i nonempty
        obtain ⟨rfl, rfl⟩ := Prod.mk.inj (Option.some.inj h)
        -- What comes instead begins with the same two characters, if with a brace at all.
        refine ⟨[], rfl, by simp, fun u follows => readBoundary?_of_unnamed fun inner' eq => ?_⟩
        obtain rfl : u = '{' :: inner' := eq
        have same := follows.brace rfl
        cases inner with
        | nil => simp at nonempty
        | cons e inner =>
          cases inner' with
          | nil => simp at same
          | cons f inner' =>
            obtain rfl : e = f := by simpa using same
            simpa using unnamed
  · rename_i other
    obtain ⟨rfl, rfl⟩ := Prod.mk.inj (Option.some.inj h)
    refine ⟨[], rfl, by simp, fun u follows => readBoundary?_of_unnamed fun inner eq => ?_⟩
    obtain rfl : u = '{' :: inner := eq
    have same := follows.brace rfl
    cases t with
    | nil => simp at same
    | cons c t =>
      obtain rfl : c = '{' := (List.cons.inj same).1
      exact absurd rfl (other t)

theorem takes_readProperty? {set : CharSet} (h : readProperty? false t = some (set, rest)) :
    ∃ w, t = w ++ rest ∧ w.getLast? ≠ some 'y' ∧ Takes (readProperty? false) w set := by
  rw [readProperty?, ignore_false] at h
  split at h
  · cases h
  · rename_i inner
    obtain ⟨⟨name, rest'⟩, read, h⟩ := Option.bind_eq_some_iff.1 h
    obtain ⟨property, found, h⟩ := Option.bind_eq_some_iff.1 h
    obtain ⟨rfl, rfl⟩ := Prod.mk.inj (Option.some.inj h)
    obtain ⟨w, rfl, takes⟩ := takes_readBraced? read
    refine ⟨('{' :: w) ++ ['}'], by simp, getLast?_snoc_ne (by decide), fun u => ?_⟩
    have := takes u
    simp_all [readProperty?]
  · cases h
  · rename_i c _ brace backslash
    rw [Option.bind_eq_bind, Option.bind_some] at h
    obtain ⟨property, found, h⟩ := Option.bind_eq_some_iff.1 h
    obtain ⟨rfl, rfl⟩ := Prod.mk.inj (Option.some.inj h)
    refine ⟨[c], rfl, fun last => ?_, fun u => ?_⟩
    · obtain rfl : c = 'y' := by simpa using last
      have : Text.Property.find? ['y'] = none := by decide
      simp_all
    · simp_all [readProperty?]

/-! ## Escapes -/

theorem takes_readEscape? {e : Escape} (h : readEscape? false t = some (e, rest)) :
    ∃ w, t = w ++ rest ∧ w ≠ [] ∧ w.getLast? ≠ some 'y' ∧
      ∀ u, (∀ l, e = .look l → Follows rest u) → readEscape? false (w ++ u) = some (e, u) := by
  cases t with
  | nil => cases h
  | cons c t =>
    unfold readEscape? at h
    dsimp only at h
    split at h
    any_goals
      obtain ⟨rfl, rfl⟩ := Prod.mk.inj (Option.some.inj h)
      exact ⟨[_], rfl, by simp, by simp, fun u _ => rfl⟩
    case h_7 | h_8 =>
      obtain ⟨⟨set, rest'⟩, read, eq⟩ := Option.map_eq_some_iff.1 h
      obtain ⟨rfl, rfl⟩ := Prod.mk.inj eq
      obtain ⟨w, rfl, last, takes⟩ := takes_readProperty? read
      refine ⟨_ :: w, rfl, by simp, getLast?_cons_ne (by decide) last, fun u _ => ?_⟩
      have := takes u
      simp_all [readEscape?]
    case h_17 =>
      obtain ⟨⟨l, rest'⟩, read, eq⟩ := Option.map_eq_some_iff.1 h
      obtain ⟨rfl, rfl⟩ := Prod.mk.inj eq
      obtain ⟨w, rfl, last, takes⟩ := takes_readBoundary? read
      refine ⟨_ :: w, rfl, by simp, getLast?_cons_ne (by decide) last, fun u follows => ?_⟩
      have := takes u (follows _ rfl)
      simp_all [readEscape?]
    case h_21 | h_22 | h_23 =>
      obtain ⟨⟨d, rest'⟩, read, eq⟩ := Option.map_eq_some_iff.1 h
      obtain ⟨rfl, rfl⟩ := Prod.mk.inj eq
      obtain ⟨w, rfl, nonempty, last, takes⟩ := takes_readHex? (by decide) read
      refine ⟨_ :: w, rfl, by simp, getLast?_cons_ne (by decide) last, fun u _ => ?_⟩
      have := takes u
      obtain ⟨d, w, rfl⟩ := List.exists_cons_of_ne_nil nonempty
      simp_all [readEscape?]
    case h_24 =>
      split at h
      · rename_i escapable
        obtain ⟨rfl, rfl⟩ := Prod.mk.inj (Option.some.inj h)
        refine ⟨[c], rfl, by simp, fun last => ?_, fun u _ => ?_⟩
        · obtain rfl : c = 'y' := by simpa using last
          exact absurd escapable (by decide)
        · simp_all [readEscape?]
      · cases h

end RulesText.Regex
