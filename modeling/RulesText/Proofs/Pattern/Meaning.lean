import RulesText.Proofs.Pattern.Alternation
import RulesText.Proofs.Regex.Words
import RulesText.Proofs.Text.Wording

/-!
# What pattern texts match

The texts that patterns are put together from have a meaning of their own: which places of a line
they match from. It does not depend on what stands around them, and it stays the same when their
groups are qualified.

## Main definitions

* `Ends.text`, `Ends.seq`, `Ends.option`: how meanings are put together.
* `Pattern.Denotes`: a pattern text with its meaning.

## Main statements

* `Pattern.Denotes.qualifyGroups`: the names of groups have no meaning.
* `Pattern.Denotes.occursIn_iff`: what a pattern text matches as a whole.
-/

namespace RulesText

/-! ## Meanings -/

namespace Ends

/-- Nothing is taken. -/
def skip : Ends Cursor := fun c d => d = c

/-- The text is taken. -/
def text (t : Text) : Ends Cursor := fun c d => c.Through t d

/-- One of the texts is taken. -/
def oneOf (ts : List Text) : Ends Cursor := fun c d => ∃ t ∈ ts, c.Through t d

/-- One after the other. -/
def seq (M N : Ends Cursor) : Ends Cursor := fun c d => ∃ e, M c e ∧ N e d

/-- Taken or left out. -/
def option (M : Ends Cursor) : Ends Cursor := fun c d => d = c ∨ M c d

/-- Nothing is taken, at the start or at the end of a word. -/
def boundary : Ends Cursor := fun c d => Regex.Look.wordBoundary.holds c ∧ d = c

variable {M : Ends Cursor} {c d : Cursor}

theorem skip_seq (M : Ends Cursor) : seq skip M = M := by
  funext c d
  simp [seq, skip]

theorem seq_skip (M : Ends Cursor) : seq M skip = M := by
  funext c d
  simp [seq, skip]

theorem seq_assoc (M N L : Ends Cursor) : seq (seq M N) L = seq M (seq N L) := by
  funext c d
  simp only [seq, eq_iff_iff]
  constructor
  · rintro ⟨e, ⟨f, first, second⟩, third⟩
    exact ⟨f, first, e, second, third⟩
  · rintro ⟨f, first, e, second, third⟩
    exact ⟨e, ⟨f, first, second⟩, third⟩

theorem between_one_iff : Between M 0 (some 1) c d ↔ option M c d := by
  have own : (∃ e, M c e ∧ ∃ k ≤ 0, Rounds M k e d) ↔ M c d := by
    simp [Rounds]
  rw [between_some_iff, option, ← own, ← rounds_succ_iff]
  simp [Rounds]

end Ends

namespace Regex

variable {c d : Cursor} {t : Text} {caseless : Bool}

/-- At most one round, whatever it takes. -/
theorem matches_repeated_one {r : Regex} {greedy : Bool} :
    (repeated r 0 (some 1) greedy).Matches c d ↔ Ends.option r.Matches c d := by
  rw [repeated_one, Matches, Ends.between_one_iff]

theorem matches_char {x : Char} : (char x).Matches c d ↔ c.Through [x] d := by
  rw [char, Matches]
  simp only [CharSet.contains_single, beq_iff_eq, Cursor.next?_eq_some_iff]
  constructor
  · rintro ⟨y, through, rfl⟩
    exact through
  · exact fun through => ⟨x, through, rfl⟩

/-- Characters that stand for themselves. -/
theorem matchesAll_chars : MatchesAll (t.map char) c d ↔ c.Through t d := by
  induction t generalizing c with
  | nil => exact ⟨fun same => same ▸ .refl c, fun through => through.eq⟩
  | cons x t ih =>
    simp only [List.map_cons, MatchesAll, ih, matches_char]
    constructor
    · rintro ⟨e, first, rest⟩
      exact first.trans rest
    · intro through
      obtain ⟨e, next, rest⟩ := through.cons
      exact ⟨e, Cursor.next?_eq_some_iff.1 next, rest⟩

/-- A text without named groups is read in one way only. -/
theorem Reads.unique {rs rs' : List Regex} (h : Reads caseless t rs) (h' : Reads caseless t rs')
    (fragment : IsFragment t []) : rs = rs' := by
  obtain ⟨lexemes, cuts, reads⟩ := h
  obtain ⟨others, cuts', reads'⟩ := h'
  obtain ⟨all, countable, cuts'', run, unnamed⟩ := fragment
  have lexed : lexemes? t = some lexemes := cuts.lexemesFrom? (by simp)
  obtain rfl := Option.some.inj (lexed.symm.trans (cuts'.lexemesFrom? (by simp)))
  obtain rfl := Option.some.inj (lexed.symm.trans (cuts''.lexemesFrom? (by simp)))
  obtain ⟨reader, read, -⟩ := Reader.exists_foldlM
    (a := { level := { flags := initialFlags caseless } }) ⟨rfl, by simp⟩ cuts.keepsFlags run
    (by simp [unnamed]) (by simp [unnamed])
  have exprs := (reads _ reader rfl read).exprs
  rw [(reads' _ reader rfl read).exprs] at exprs
  exact (List.append_cancel_left exprs).symm

/-! ## Letters, digits and spaces -/

theorem readLexeme?_plain {x : Char} (h : x.isAlphanum ∨ x = ' ') :
    readLexeme? false [x] = some (.char x, []) := by
  unfold readLexeme?
  dsimp only
  split <;> first | rfl | exact absurd h (by decide)

theorem isFragment_plain (chars : ∀ x ∈ t, x.isAlphanum ∨ x = ' ') : IsFragment t [] := by
  induction t with
  | nil => exact .nil
  | cons x t ih =>
    obtain ⟨own, others⟩ := List.forall_mem_cons.1 chars
    exact (IsFragment.single _ (readLexeme?_plain own) trivial rfl rfl).append (ih others)

theorem reads_plain (chars : ∀ x ∈ t, x.isAlphanum ∨ x = ' ') :
    Reads caseless t (t.map (initialFlags caseless).char) := by
  induction t with
  | nil => exact .nil
  | cons x t ih =>
    obtain ⟨own, others⟩ := List.forall_mem_cons.1 chars
    exact (Reads.char (readLexeme?_plain own)).append (ih others) (isFragment_plain others).stands

end Regex

/-! ## Pattern texts -/

namespace Pattern

open Regex (Reads MatchesAll IsFragment HasBranches)
open Template (IsName)

variable {s t name field : Text} {M N : Ends Cursor} {c d : Cursor}

/-- Letters, digits and spaces are plain text. -/
theorem piece_plain (chars : ∀ x ∈ t, x.isAlphanum ∨ x = ' ') : Piece t [] := by
  refine .plain (Regex.isFragment_plain chars) (fun mem => ?_) fun last => ?_
  · exact absurd (chars _ mem) (by decide)
  · exact absurd (chars _ (List.mem_of_getLast? last)) (by decide)

/-- The text is put together from pieces that can be read, and it matches from the first place to
the second wherever it stands. -/
inductive Denotes : Text → Ends Cursor → Prop
  | plain {t : Text} {rs : List Regex} (piece : Piece t []) (reads : Reads false t rs) :
    Denotes t (MatchesAll rs)
  | append {s t : Text} {M N : Ends Cursor} (first : Denotes s M) (second : Denotes t N) :
    Denotes (s ++ t) (M.seq N)
  | optional {t : Text} {M : Ends Cursor} (inner : Denotes t M) :
    Denotes ("(?:" ++ t ++ ")?") M.option
  | named {t name : Text} {M : Ends Cursor} (isName : IsName name) (inner : Denotes t M) :
    Denotes (RenderedField.wrap name t) M

namespace Denotes

theorem congr (h : Denotes t M) (same : ∀ c d, M c d ↔ N c d) : Denotes t N := by
  have eq : M = N := funext fun c => funext fun d => propext (same c d)
  exact eq ▸ h

theorem nil : Denotes [] Ends.skip :=
  (plain .nil .nil).congr fun _ _ => Iff.rfl

/-- Letters, digits and spaces match themselves. -/
theorem text (chars : ∀ x ∈ t, x.isAlphanum ∨ x = ' ') : Denotes t (Ends.text t) :=
  (plain (piece_plain chars) (Regex.reads_plain chars)).congr fun _ _ => Regex.matchesAll_chars

theorem wordBoundary : Denotes "\\b" Ends.boundary := by
  refine (plain Alternation.piece_wordBoundary .wordBoundary).congr fun c d => ?_
  constructor
  · rintro ⟨_, ⟨holds, rfl⟩, rfl⟩
    exact ⟨holds, rfl⟩
  · rintro ⟨holds, rfl⟩
    exact ⟨d, ⟨holds, rfl⟩, rfl⟩

theorem exists_piece (h : Denotes t M) : ∃ names, Piece t names := by
  induction h with
  | plain piece => exact ⟨[], piece⟩
  | append _ _ ih ih' =>
    obtain ⟨names, piece⟩ := ih
    obtain ⟨more, piece'⟩ := ih'
    exact ⟨_, .append piece piece'⟩
  | optional _ ih =>
    obtain ⟨names, piece⟩ := ih
    exact ⟨names, .optional piece⟩
  | named isName _ ih =>
    obtain ⟨names, piece⟩ := ih
    exact ⟨_, .named isName piece⟩

theorem exists_isFragment (h : Denotes t M) : ∃ names, IsFragment t names := by
  obtain ⟨names, piece⟩ := h.exists_piece
  exact ⟨names, piece.fragment⟩

/-- Wherever the text is read, it is read as expressions that match what it denotes. -/
theorem exists_reads (h : Denotes t M) :
    ∃ rs, Reads false t rs ∧ ∀ c d, MatchesAll rs c d ↔ M c d := by
  induction h with
  | @plain t rs piece reads => exact ⟨rs, reads, fun _ _ => Iff.rfl⟩
  | append first second ih ih' =>
    obtain ⟨rs, reads, same⟩ := ih
    obtain ⟨rs', reads', same'⟩ := ih'
    obtain ⟨names, fragment⟩ := second.exists_isFragment
    refine ⟨rs ++ rs', reads.append reads' fragment.stands, fun c d => ?_⟩
    simp only [Regex.matchesAll_append, same, same', Ends.seq]
  | @optional t M inner ih =>
    obtain ⟨rs, reads, same⟩ := ih
    refine ⟨_, reads.hasBranches.optional, fun c d => ?_⟩
    have body : ∀ c d, (Regex.oneOf [Regex.branchOf rs]).Matches c d ↔ M c d := by
      simpa [Regex.matches_branchOf] using same
    simp only [MatchesAll, Regex.matches_repeated_one, Ends.option, body, exists_eq_right']
  | named isName inner ih =>
    obtain ⟨rs, reads, same⟩ := ih
    refine ⟨_, reads.hasBranches.named isName.readGroupName?, fun c d => ?_⟩
    simp only [MatchesAll, Regex.Matches, Regex.oneOf_singleton, Regex.matches_branchOf, same,
      exists_eq_right']

theorem forward (h : Denotes t M) : M.Forward := by
  obtain ⟨rs, -, same⟩ := h.exists_reads
  intro c d step
  exact Regex.matches_forward _ c d (Regex.matches_branchOf.2 ((same c d).2 step))

/-- Qualifying the groups of a text does not change what it matches. -/
theorem qualifyGroups (h : Denotes t M) (isName : IsName field) :
    Denotes (Pattern.qualifyGroups t field) M := by
  induction h with
  | @plain t rs piece reads =>
    have noAngle : '<' ∉ t := by
      have marked := piece.marked
      generalize eq : ([] : List Text) = names at marked
      cases marked with
      | text noAngle => exact noAngle
      | marker => cases eq
    rw [qualifyGroups_of_noAngle noAngle]
    exact .plain piece reads
  | append first second ih ih' =>
    obtain ⟨names, piece⟩ := first.exists_piece
    obtain ⟨more, piece'⟩ := second.exists_piece
    rw [(piece.marked.append piece.getLast?_ne piece'.marked).2]
    exact .append ih ih'
  | optional inner ih =>
    obtain ⟨names, piece⟩ := inner.exists_piece
    rw [(piece.marked.enclose piece.getLast?_ne (by decide) (by decide) (by decide)).2]
    exact .optional ih
  | named own inner ih =>
    obtain ⟨names, piece⟩ := inner.exists_piece
    rw [(piece.marked.wrap piece.getLast?_ne own).2]
    exact .named (isName.qualified own) ih

/-- A text without named groups has one meaning. -/
theorem unique (h : Denotes t M) (h' : Denotes t N) (piece : Piece t []) : M c d ↔ N c d := by
  obtain ⟨rs, reads, same⟩ := h.exists_reads
  obtain ⟨rs', reads', same'⟩ := h'.exists_reads
  obtain rfl := reads.unique reads' piece.fragment
  rw [← same, ← same']

/-- A group of several texts without named groups matches what one of them matches. -/
theorem choice {ts : List Text} (nonempty : ts ≠ []) (pieces : ∀ t ∈ ts, Piece t [])
    (all : ∀ t ∈ ts, ∃ M, Denotes t M) :
    Denotes ("(?:" ++ Text.join ['|'] ts ++ ")") fun c d =>
      ∃ t ∈ ts, ∃ M, Denotes t M ∧ M c d := by
  choose! M denotes using all
  have readable : ∀ t ∈ ts, ∃ rs, Reads false t rs ∧ ∀ c d, MatchesAll rs c d ↔ M t c d :=
    fun t mem => (denotes t mem).exists_reads
  choose! rs reads same using readable
  have branches := (HasBranches.join nonempty fun t mem => (reads t mem).hasBranches).group
  have some_branch : (ts.flatMap fun t => [Regex.branchOf (rs t)]) ≠ [] := by
    simpa using List.exists_mem_of_ne_nil ts nonempty
  refine (plain (.group (Alternation.piece_join pieces)) branches).congr fun c d => ?_
  simp only [MatchesAll, exists_eq_right', Regex.matches_oneOf some_branch, List.mem_flatMap,
    List.mem_singleton]
  constructor
  · rintro ⟨_, ⟨t, mem, rfl⟩, step⟩
    exact ⟨t, mem, M t, denotes t mem, (same t mem c d).1 (Regex.matches_branchOf.1 step)⟩
  · rintro ⟨t, mem, N, denotes', step⟩
    have own : M t c d := ((denotes t mem).unique denotes' (pieces t mem)).2 step
    exact ⟨_, ⟨t, mem, rfl⟩, Regex.matches_branchOf.2 ((same t mem c d).2 own)⟩

/-- A group of plain texts matches one of them. -/
theorem oneOf {ts : List Text} (nonempty : ts ≠ [])
    (chars : ∀ t ∈ ts, ∀ x ∈ t, x.isAlphanum ∨ x = ' ') :
    Denotes ("(?:" ++ Text.join ['|'] ts ++ ")") (Ends.oneOf ts) := by
  refine (choice nonempty (fun t mem => piece_plain (chars t mem))
    fun t mem => ⟨_, .text (chars t mem)⟩).congr fun c d => ?_
  constructor
  · rintro ⟨t, mem, M, denotes, step⟩
    exact ⟨t, mem, (denotes.unique (.text (chars t mem)) (piece_plain (chars t mem))).1 step⟩
  · rintro ⟨t, mem, through⟩
    exact ⟨t, mem, _, .text (chars t mem), through⟩

/-- A group without branches matches the empty text. -/
theorem emptyGroup : Denotes "(?:)" Ends.skip := by
  refine (plain (.group .nil) Reads.nil.hasBranches.group).congr fun c d => ?_
  simp [MatchesAll, Regex.matches_branchOf, Ends.skip]

/-- Where there is no angle bracket, there are no named groups. -/
theorem piece_of_noAngle (h : Denotes t M) (noAngle : '<' ∉ t) : Piece t [] := by
  obtain ⟨names, piece⟩ := h.exists_piece
  have none := piece.marked.groupNames_eq
  rw [groupNames_of_noAngle noAngle] at none
  exact none ▸ piece

/-- What a pattern text matches from the start of a text to its end. -/
theorem occursIn_iff (h : Denotes t M) {r : Regex}
    (parsed : Regex.parse? (Regex.anchored t) = some r) {u : Text} :
    r.searcher.occursIn u ↔ ∃ d : Cursor, d.ahead = [] ∧ M (.start u) d := by
  obtain ⟨rs, reads, same⟩ := h.exists_reads
  have branches : HasBranches false t [Regex.branchOf rs] := reads.hasBranches
  rw [branches.anchored parsed, Regex.oneOf_singleton, Regex.occursIn_whole_iff]
  simp only [Regex.matches_branchOf, same]

end Denotes

end Pattern

end RulesText
