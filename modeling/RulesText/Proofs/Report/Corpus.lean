import RulesText.Proofs.Report.Card
import RulesText.Report.Corpus

/-!
# The report of a corpus in color

Numbers at the start of rows are padded after they are painted. A painted number is wider than its
column, so in color it is not padded at all, and without color sequences its row lacks the blanks
that it has in the report without color. Nothing else differs.

## Main definitions

* `Text.Lacks`: a text lacks some blanks of another one.
* `CorpusAnalysis.numbers`: the numbers that a report shows in columns.
* `CorpusAnalysis.LacksPadding`: how the reports with and without color differ.

## Main statements

* `CorpusAnalysis.withoutColors_ofCorpus`: color takes the padding of numbers away, and no more.
-/

namespace RulesText

open Text

/-! ## Missing blanks -/

/-- The first text is the second one without so many of its blanks. -/
inductive Text.Lacks : Nat → Text → Text → Prop
  | nil : Lacks 0 [] []
  | cons (c : Char) {k : Nat} {s t : Text} : Lacks k s t → Lacks k (c :: s) (c :: t)
  | blank {k : Nat} {s t : Text} : Lacks k s t → Lacks (k + 1) s (' ' :: t)

namespace Text.Lacks

variable {k m : Nat} {s t u v : Text}

theorem refl (t : Text) : Lacks 0 t t := by
  induction t with
  | nil => exact .nil
  | cons c t ih => exact .cons c ih

theorem append (h : Lacks k s t) (h' : Lacks m u v) : Lacks (k + m) (s ++ u) (t ++ v) := by
  induction h with
  | nil => rwa [Nat.zero_add]
  | cons c _ ih => exact .cons c ih
  | blank _ ih =>
    rw [Nat.add_right_comm]
    exact .blank ih

theorem blanks (k : Nat) (h : Lacks m s t) : Lacks (k + m) s (List.replicate k ' ' ++ t) := by
  induction k with
  | zero => rwa [Nat.zero_add]
  | succ k ih =>
    rw [Nat.add_right_comm]
    exact .blank ih

theorem length_eq (h : Lacks k s t) : t.length = s.length + k := by
  induction h with
  | nil => rfl
  | cons c _ ih => rw [List.length_cons, List.length_cons, ih, Nat.add_right_comm]
  | blank _ ih => rw [List.length_cons, ih, Nat.add_assoc]

theorem eq_iff (h : Lacks k s t) : s = t ↔ k = 0 := by
  constructor
  · rintro rfl
    have := h.length_eq
    omega
  · intro none
    induction h with
    | nil => rfl
    | cons c _ ih => rw [ih none]
    | blank => cases none

end Text.Lacks

namespace Report

/-- The lines, without color sequences, lack so many blanks of others. -/
def LinesLack (k : Nat) (colored others : List Text) : Prop :=
  Lacks k (render (colored.map withoutColors)) (render others)

namespace LinesLack

variable {k m : Nat} {a b c d : List Text}

theorem append (h : LinesLack k a b) (h' : LinesLack m c d) :
    LinesLack (k + m) (a ++ c) (b ++ d) := by
  have joined := Lacks.append h h'
  rwa [render, render, ← List.flatMap_append, ← List.map_append, render, render,
    ← List.flatMap_append] at joined

/-- Lines that are painted, and are plain without the paint, lack nothing. -/
theorem of_isPlain (same : a.map withoutColors = b.map withoutColors)
    (plain : ∀ line ∈ b, IsPlain line) : LinesLack 0 a b := by
  have kept : b.map withoutColors = b :=
    (List.map_congr_left fun line mem => (plain line mem).withoutColors_eq).trans (List.map_id' b)
  rw [LinesLack, same, kept]
  exact .refl _

theorem flatMap {α : Type} {l : List α} {missing : α → Nat} {f g : α → List Text}
    (each : ∀ x ∈ l, LinesLack (missing x) (f x) (g x)) :
    LinesLack (l.map missing).sum (l.flatMap f) (l.flatMap g) := by
  induction l with
  | nil => exact .nil
  | cons x l ih =>
    obtain ⟨first, each⟩ := List.forall_mem_cons.1 each
    exact first.append (ih each)

theorem map {α : Type} {l : List α} {missing : α → Nat} {f g : α → Text}
    (each : ∀ x ∈ l, LinesLack (missing x) [f x] [g x]) :
    LinesLack (l.map missing).sum (l.map f) (l.map g) := by
  rw [List.map_eq_flatMap (f := f), List.map_eq_flatMap (f := g)]
  exact flatMap each

end LinesLack

/-! ## Rows with a number -/

/-- How many blanks a number leaves in its column. -/
def missing (number : Text) : Nat :=
  6 - number.length

theorem numberColumn_disabled (number : Text) : numberColumn ⟨false⟩ number =
    "  " ++ (List.replicate (missing number) ' ' ++ (number ++ "  ")) := by
  simp [numberColumn, padStart, missing]

/-- A painted number is wider than its column. -/
theorem numberColumn_enabled (number : Text) : numberColumn ⟨true⟩ number =
    "  " ++ ((Palette.mk true).paint .green number ++ "  ") := by
  have wide : 6 ≤ ((Palette.mk true).paint .green number).length := by
    simp [Palette.paint, Palette.wrap, escapeSequence_eq, Color.code]
  rw [numberColumn, padStart, Nat.sub_eq_zero_of_le wide]
  simp

theorem withoutColors_numberColumn (number t : Text) :
    withoutColors (numberColumn ⟨true⟩ number ++ t) =
      "  " ++ (withoutColors number ++ ("  " ++ withoutColors t)) := by
  have column : numberColumn ⟨true⟩ number ++ t =
      ' ' :: ' ' :: ((Palette.mk true).paint .green number ++ ' ' :: ' ' :: t) := by
    rw [numberColumn_enabled]
    simp
  rw [column]
  simp

/-- A row in color lacks the blanks in front of its number. -/
theorem linesLack_row {number t u : Text} (plain : IsPlain number) (same : withoutColors t = u) :
    LinesLack (missing number) [numberColumn ⟨true⟩ number ++ t]
      [numberColumn ⟨false⟩ number ++ u] := by
  have row : Lacks (missing number) (withoutColors (numberColumn ⟨true⟩ number ++ t))
      (numberColumn ⟨false⟩ number ++ u) := by
    rw [withoutColors_numberColumn, numberColumn_disabled, plain.withoutColors_eq, same,
      List.append_assoc, List.append_assoc, List.append_assoc]
    simpa using (Lacks.refl "  ").append (.blanks (missing number) (.refl (number ++ ("  " ++ u))))
  simpa [LinesLack, render] using row.append (.refl ['\n'])

theorem linesLack_kindLines (top : Nat) (counts : List (Kind × Nat)) :
    LinesLack ((counts.take top).map fun c => missing (ofNat c.2)).sum
      (kindLines ⟨true⟩ top counts) (kindLines ⟨false⟩ top counts) := by
  rw [kindLines, kindLines]
  cases counts with
  | nil =>
    rw [List.take_nil, List.isEmpty_nil, if_pos rfl, if_pos rfl]
    exact .of_isPlain (by simp) (List.forall_mem_singleton.2 (by decide))
  | cons first counts =>
    exact .map fun c _ => linesLack_row (isPlain_ofNat c.2)
      ((Palette.withoutColors_paint _ _ _).trans (isPlain_name c.1).withoutColors_eq)

/-! ## Neighbours, time and size -/

section

variable (p q : Palette)

theorem withoutColors_totals (r : CorpusAnalysis) :
    withoutColors (totals p r) = withoutColors (totals q r) := by
  simp [totals]

theorem map_withoutColors_neighbourLines (r : CorpusAnalysis) (top : Nat) :
    (neighbourLines p r top).map withoutColors = (neighbourLines q r top).map withoutColors := by
  rw [neighbourLines, neighbourLines, List.map_filterMap, List.map_filterMap]
  refine List.filterMap_congr ?_
  rintro ⟨text, n⟩ -
  cases found : r.collocations.get? text <;> simp [found, neighbourLine]

/-- A plain text that begins with a barrier stays between the texts around it. -/
theorem withoutColors_append_append {t : Text} (plain : IsPlain t)
    (barrier : t.head?.any isBarrier) (s u : Text) :
    withoutColors (s ++ (t ++ u)) = withoutColors s ++ (t ++ withoutColors u) := by
  cases t with
  | nil => cases barrier
  | cons c t =>
    have barrier : ∀ x ∈ (c :: t ++ u).head?, isBarrier x := by simpa using barrier
    rw [withoutColors_append barrier, plain.withoutColors_append]

theorem withoutColors_timingLine (t : Timings) :
    withoutColors (timingLine p t) = withoutColors (timingLine q t) := by
  unfold timingLine
  simp (disch := decide) only [List.append_assoc, withoutColors_append_append,
    IsPlain.withoutColors_append, Palette.withoutColors_paint, Palette.withoutColors_dim]

theorem withoutColors_sizeLine (r : CorpusAnalysis) :
    withoutColors (sizeLine p r) = withoutColors (sizeLine q r) := by
  simp [sizeLine]

end

theorem isPlain_totals (r : CorpusAnalysis) : IsPlain (totals ⟨false⟩ r) := by
  simp only [totals, Palette.dim_disabled, Palette.paint_disabled, isPlain_append, isPlain_ofNat,
    and_true]
  decide

theorem isPlain_side {labels : Tally} (plain : ∀ label ∈ labels, IsPlain label.1) :
    IsPlain (side labels) := by
  refine isPlain_unwords fun t mem => ?_
  obtain ⟨label, shown, rfl⟩ := List.mem_map.1 mem
  have listed := List.mem_mergeSort.1 (List.mem_of_mem_take shown)
  exact isPlain_append.2 ⟨isPlain_append.2 ⟨plain label listed, by decide⟩, isPlain_ofNat label.2⟩

theorem isPlain_exact (places n : Nat) : IsPlain (Decimal.exact places n) := by
  have digits : IsPlain (Decimal.zeroPadded (places + 1) n) := by
    refine isPlain_append.2 ⟨fun mem => ?_, isPlain_ofNat n⟩
    have := List.eq_of_mem_replicate mem
    contradiction
  have whole := digits.subset (List.take_subset ((Decimal.zeroPadded (places + 1) n).length -
    places) _)
  rw [Decimal.exact]
  split
  · exact whole
  · refine isPlain_append.2 ⟨isPlain_append.2 ⟨whole, by decide⟩, digits.subset fun c mem => ?_⟩
    have kept := List.dropWhile_subset _ (List.mem_reverse.1 mem)
    exact List.drop_subset _ _ (List.mem_reverse.1 kept)

theorem isPlain_ofDuration (nanos : Nat) : IsPlain (Decimal.ofDuration nanos) := by
  rw [Decimal.ofDuration]
  split
  · exact isPlain_append.2 ⟨isPlain_exact _ _, by decide⟩
  · split
    · exact isPlain_append.2 ⟨isPlain_exact _ _, by decide⟩
    · split <;> exact isPlain_append.2 ⟨isPlain_exact _ _, by decide⟩

theorem isPlain_timingLine (t : Timings) : IsPlain (timingLine ⟨false⟩ t) := by
  unfold timingLine
  simp only [Palette.dim_disabled, Palette.paint_disabled, isPlain_append, isPlain_ofDuration,
    and_true]
  decide +kernel

theorem isPlain_sizeLine (r : CorpusAnalysis) : IsPlain (sizeLine ⟨false⟩ r) := by
  refine isPlain_indented 1 ?_
  simp only [Palette.dim_disabled, isPlain_append, isPlain_ofNat, and_true]
  decide

/-! ## Sections of a plain report -/

section

variable {r : CorpusAnalysis} (plain : r.IsPlain)

include plain

theorem withoutColors_excerptText {e : Occurrence} {x : Excerpt} (found : r.excerpt? e = some x) :
    withoutColors (excerptText ⟨true⟩ x) = excerptText ⟨false⟩ x := by
  obtain ⟨card, at_place, found⟩ := Option.bind_eq_some_iff.1 found
  obtain ⟨before, middle, after⟩ := e.isPlain_of_excerpt? found
    (plain.cards card (List.mem_of_getElem? at_place))
  rw [excerptText, List.append_assoc, Palette.dim,
    Palette.withoutColors_wrap_append (by decide), Palette.bold,
    Palette.withoutColors_wrap_append (by decide), Palette.withoutColors_paint,
    Palette.withoutColors_dim, before.withoutColors_eq, middle.withoutColors_eq,
    after.withoutColors_eq]
  simp [excerptText]

theorem linesLack_repeatLines {f : Repeat} (mem : f ∈ r.repeats) :
    LinesLack (missing ("×" ++ ofNat f.count)) (repeatLines ⟨true⟩ r f)
      (repeatLines ⟨false⟩ r f) := by
  have number : IsPlain ("×" ++ ofNat f.count) :=
    isPlain_append.2 ⟨by decide, isPlain_ofNat f.count⟩
  have text : withoutColors ((Palette.mk true).bold ((Palette.mk true).paint .yellow f.text)) =
      f.text := by
    simpa using (plain.repeats f mem).withoutColors_eq
  refine (linesLack_row number text).append (m := 0) ?_
  cases sample : (r.sample? f).bind r.excerpt? with
  | none => exact .refl _
  | some x =>
    obtain ⟨e, -, found⟩ := Option.bind_eq_some_iff.1 sample
    have shown : (indented 5 (excerptText ⟨true⟩ x)).withoutColors =
        indented 5 (excerptText ⟨false⟩ x) := by
      rw [withoutColors_indented, withoutColors_excerptText plain found]
    simp [LinesLack, shown, Lacks.refl]

theorem linesLack_repeatsLines (top : Nat) :
    LinesLack ((r.repeats.take top).map fun f => missing ("×" ++ ofNat f.count)).sum
      (repeatsLines ⟨true⟩ r top) (repeatsLines ⟨false⟩ r top) := by
  rw [repeatsLines, repeatsLines]
  split
  · rename_i none
    rw [List.isEmpty_iff.1 none, List.take_nil]
    exact .of_isPlain (by simp) (List.forall_mem_singleton.2 (by decide))
  · exact .flatMap fun f mem => linesLack_repeatLines plain (List.mem_of_mem_take mem)

theorem linesLack_candidateLines (top : Nat) :
    LinesLack (((r.candidates.filter (0 < ·.fitness)).take top).map fun c =>
        missing (ofNat c.fitness)).sum
      (candidateLines ⟨true⟩ top r.candidates) (candidateLines ⟨false⟩ top r.candidates) := by
  refine .map fun c mem => ?_
  obtain ⟨stem, nextWords⟩ :=
    plain.candidates c (List.mem_filter.1 (List.mem_of_mem_take mem)).1
  obtain ⟨details, plain, line⟩ : ∃ details, IsPlain details ∧ ∀ p : Palette, candidateLine p c =
      numberColumn p (ofNat c.fitness) ++
        (p.bold (p.paint .cyan c.stem) ++ ' ' :: p.dim details) := by
    have next : IsPlain (join ", " c.nextWords) := isPlain_join (by decide) nextWords
    refine ⟨"support " ++ ofNat c.support ++ " │ branching " ++ ofNat c.branching ++
      " │ next: " ++ join ", " c.nextWords, ?_, fun p => by simp [candidateLine]⟩
    simp only [isPlain_append, isPlain_ofNat, next, and_true]
    decide
  rw [line, line]
  exact linesLack_row (isPlain_ofNat c.fitness)
    (by simp [stem.withoutColors_eq, plain.withoutColors_eq])

theorem isPlain_neighbourLines (top : Nat) :
    ∀ line ∈ neighbourLines ⟨false⟩ r top, IsPlain line := by
  intro line mem
  obtain ⟨⟨text, n⟩, listed, mem⟩ := List.mem_filterMap.1 mem
  obtain ⟨counts, found, rfl⟩ := Option.map_eq_some_iff.1 mem
  obtain ⟨e, occurs, rfl⟩ := List.mem_map.1
    (Concordance.mem_texts_of_mem_weighted (List.mem_of_mem_take listed))
  obtain ⟨front, back, eq, -⟩ := List.lookup_eq_some_iff.1 found
  have labels := plain.labels (e.gap.text, counts) (by simp [eq])
  obtain ⟨before, after⟩ := List.forall_mem_append.1 labels
  have number : IsPlain ("(" ++ ofNat counts.occurrences ++ ")") :=
    isPlain_append.2 ⟨isPlain_append.2 ⟨by decide, isPlain_ofNat _⟩, by decide⟩
  exact isPlain_indented 1 (isPlain_unwords_cons (isPlain_side before)
    (isPlain_unwords_cons (plain.gaps e occurs) (isPlain_unwords_cons (isPlain_side after)
      (isPlain_unwords_singleton number))))

end

/-! ## The report -/

/-- A section behind other lines lacks what its rows lack. -/
theorem LinesLack.withSection {k m : Nat} {a b c d : List Text} (h : LinesLack k a b) (t : Text)
    (plain : IsPlain t) (rows : LinesLack m c d) :
    LinesLack (k + m) (a ++ heading ⟨true⟩ t ++ c) (b ++ heading ⟨false⟩ t ++ d) :=
  (h.append (.of_isPlain (map_withoutColors_heading _ _ t) (isPlain_heading plain))).append rows

end Report

namespace CorpusAnalysis

open Report

/-- The candidates that a report shows. -/
def shownCandidates (r : CorpusAnalysis) (top : Nat) : List Candidate :=
  (r.candidates.filter (0 < ·.fitness)).take top

/-- The numbers that a report shows in columns. -/
def numbers (r : CorpusAnalysis) (top : Nat) : List Text :=
  (r.kindCounts.take top).map (fun c => ofNat c.2) ++
    ((r.repeats.take top).map (fun f => "×" ++ ofNat f.count) ++
      (r.shownCandidates top).map (fun c => ofNat c.fitness))

variable {r : CorpusAnalysis}

theorem linesLack_corpusLines (plain : r.IsPlain) (top : Nat) :
    LinesLack ((r.numbers top).map missing).sum (corpusLines ⟨true⟩ r top)
      (corpusLines ⟨false⟩ r top) := by
  have first : LinesLack 0 (title ⟨true⟩ ("Corpus: " ++ ofNat r.cardCount ++ " cards, " ++
      ofNat r.lineCount ++ " lines")) (title ⟨false⟩ ("Corpus: " ++ ofNat r.cardCount ++
      " cards, " ++ ofNat r.lineCount ++ " lines")) := by
    refine .of_isPlain (map_withoutColors_title _ _ _) (isPlain_title ?_)
    simp only [isPlain_append, isPlain_ofNat, and_true]
    decide
  have shares : LinesLack 0
      [indented 1 (Report.coverage ⟨true⟩ r.coverage), indented 1 (totals ⟨true⟩ r)]
      [indented 1 (Report.coverage ⟨false⟩ r.coverage), indented 1 (totals ⟨false⟩ r)] := by
    refine .of_isPlain ?_ (List.forall_mem_cons.2 ⟨isPlain_indented 1 (isPlain_coverage _),
      List.forall_mem_singleton.2 (isPlain_indented 1 (isPlain_totals r))⟩)
    simp only [List.map_cons, withoutColors_indented, withoutColors_coverage ⟨true⟩ ⟨false⟩,
      withoutColors_totals ⟨true⟩ ⟨false⟩]
  have kinds := linesLack_kindLines top r.kindCounts
  have repeats := linesLack_repeatsLines plain top
  have candidates := linesLack_candidateLines plain top
  have neighbours : LinesLack 0 (neighbourLines ⟨true⟩ r top) (neighbourLines ⟨false⟩ r top) :=
    .of_isPlain (map_withoutColors_neighbourLines _ _ r top) (isPlain_neighbourLines plain top)
  have times : LinesLack 0 [timingLine ⟨true⟩ r.timings, sizeLine ⟨true⟩ r, []]
      [timingLine ⟨false⟩ r.timings, sizeLine ⟨false⟩ r, []] := by
    refine .of_isPlain ?_ (List.forall_mem_cons.2 ⟨isPlain_timingLine _, List.forall_mem_cons.2
      ⟨isPlain_sizeLine r, List.forall_mem_singleton.2 isPlain_nil⟩⟩)
    simp only [List.map_cons, withoutColors_timingLine ⟨true⟩ ⟨false⟩,
      withoutColors_sizeLine ⟨true⟩ ⟨false⟩]
  have all := (((((first.withSection "Coverage" (by decide) shares).withSection
    "Variants" (by decide) kinds).withSection "Repeats" (by decide) repeats).withSection
    "Candidates" (by decide) candidates).withSection "Adjacency" (by decide) neighbours).withSection
    "Timing" (by decide) times
  have total : ((r.numbers top).map missing).sum =
      0 + 0 + ((r.kindCounts.take top).map fun c => missing (ofNat c.2)).sum +
        ((r.repeats.take top).map fun f => missing ("×" ++ ofNat f.count)).sum +
        ((r.shownCandidates top).map fun c => missing (ofNat c.fitness)).sum + 0 + 0 := by
    simp [numbers, Function.comp_def, Nat.add_assoc]
  rw [total]
  exact all

theorem lacks_ofCorpus (plain : r.IsPlain) (top : Nat) :
    Lacks ((r.numbers top).map missing).sum (withoutColors (ofCorpus r top true))
      (ofCorpus r top false) := by
  rw [ofCorpus, ofCorpus, withoutColors_render]
  exact linesLack_corpusLines plain top

theorem lt_length_ofNat {k n : Nat} (pos : 0 < k) : k < (ofNat n).length ↔ 10 ^ k ≤ n := by
  have short : (ofNat n).length ≤ k ↔ n < 10 ^ k := Nat.length_toDigits_le_iff (by decide) pos
  omega

/-- All numbers that a report shows fill their columns. -/
structure FillsColumns (r : CorpusAnalysis) (top : Nat) : Prop where
  kinds : ∀ c ∈ r.kindCounts.take top, 100000 ≤ c.2
  repeats : ∀ f ∈ r.repeats.take top, 10000 ≤ f.count
  candidates : ∀ c ∈ r.shownCandidates top, 100000 ≤ c.fitness

theorem sum_missing_eq_zero_iff (r : CorpusAnalysis) (top : Nat) :
    ((r.numbers top).map missing).sum = 0 ↔ r.FillsColumns top := by
  have six : ∀ n, missing (ofNat n) = 0 ↔ 100000 ≤ n := fun n => by
    rw [missing, Nat.sub_eq_zero_iff_le]
    exact lt_length_ofNat (by decide)
  have five : ∀ n, missing ("×" ++ ofNat n) = 0 ↔ 10000 ≤ n := fun n => by
    rw [missing, Nat.sub_eq_zero_iff_le, List.length_append, Nat.add_comm]
    exact Nat.succ_le_succ_iff.trans (lt_length_ofNat (by decide))
  simp only [List.sum_eq_zero_iff_forall_eq_nat, numbers, List.map_append, List.map_map,
    List.forall_mem_append, List.forall_mem_map, Function.comp_apply, six, five]
  constructor
  · rintro ⟨kinds, repeats, candidates⟩
    exact ⟨kinds, repeats, candidates⟩
  · rintro ⟨kinds, repeats, candidates⟩
    exact ⟨kinds, repeats, candidates⟩

/-- In color a report lacks the padding of its numbers, and nothing else. -/
structure LacksPadding (r : CorpusAnalysis) (top : Nat) : Prop where
  lacks : Lacks ((r.numbers top).map missing).sum (withoutColors (ofCorpus r top true))
    (ofCorpus r top false)
  /-- So the reports agree only where there is no padding. -/
  eq_iff : withoutColors (ofCorpus r top true) = ofCorpus r top false ↔ r.FillsColumns top

theorem lacksPadding_of_isPlain (plain : r.IsPlain) (top : Nat) : r.LacksPadding top :=
  have lacks := lacks_ofCorpus plain top
  ⟨lacks, lacks.eq_iff.trans (r.sum_missing_eq_zero_iff top)⟩

/-- The time that an analysis takes is no text of it. -/
theorem IsPlain.withTimings (plain : r.IsPlain) (times : Timings) :
    { r with timings := times }.IsPlain :=
  ⟨plain.cards, plain.gaps, plain.repeats, plain.candidates, plain.labels⟩

/-- The report of a plain analysis lacks the padding of its numbers in color, whatever time the
analysis took. So does the report of a corpus whose cards have plain texts. -/
theorem withoutColors_ofCorpus (top : Nat) (times : Timings) :
    (∀ r : CorpusAnalysis, r.IsPlain → { r with timings := times }.LacksPadding top) ∧
    ∀ (v : Vocabulary) (priority : List Kind) (t : Tokenizer) (o : Options) (items : List CardItem)
      (r : CorpusAnalysis), Tokenizer.ofVocabulary v priority = .ok t →
      t.analyzeCorpus o items = .ok r → (∀ card ∈ r.cards, Text.IsPlain card.text) →
      { r with timings := times }.LacksPadding top :=
  ⟨fun _ plain => lacksPadding_of_isPlain (plain.withTimings times) top,
    fun _ _ _ _ _ _ accepted analyzed plain => lacksPadding_of_isPlain
      ((Tokenizer.isPlain_of_analyzeCorpus accepted analyzed plain).withTimings times) top⟩

/-- The analysis of a card with one matched token and one gap. -/
theorem exists_redElk : ∃ t r, Tokenizer.ofVocabulary (colorOf "Color") [] = .ok t ∧
    t.analyzeCorpus {} [redElk] = .ok r ∧ (∀ card ∈ r.cards, Text.IsPlain card.text) ∧
    r.kindCounts = [(.colorFilter, 1)] ∧ r.numbers 20 = ["1".toList, "×1".toList] := by
  have check : (Tokenizer.ofVocabulary (colorOf "Color") []).toOption.any fun t =>
      (t.analyzeCorpus {} [redElk]).toOption.any fun r =>
        decide (∀ card ∈ r.cards, Text.IsPlain card.text) &&
          (r.kindCounts == [(.colorFilter, 1)] && r.numbers 20 == ["1".toList, "×1".toList]) := by
    decide +kernel
  obtain ⟨t, accepted, check⟩ := (Option.any_eq_true _ _).1 check
  obtain ⟨r, analyzed, check⟩ := (Option.any_eq_true _ _).1 check
  simp only [Bool.and_eq_true, decide_eq_true_eq, beq_iff_eq] at check
  exact ⟨t, r, Regex.Searcher.toOption_eq_some_iff.1 accepted,
    Regex.Searcher.toOption_eq_some_iff.1 analyzed, check⟩

theorem lacksPadding_redElk : ∃ t r, Tokenizer.ofVocabulary (colorOf "Color") [] = .ok t ∧
    t.analyzeCorpus {} [redElk] = .ok r ∧
    Lacks 9 (withoutColors (ofCorpus { r with timings := { total := 1500000 } } 20 true))
      (ofCorpus { r with timings := { total := 1500000 } } 20 false) := by
  obtain ⟨t, r, accepted, analyzed, plain, -, numbers⟩ := exists_redElk
  have lacks := ((withoutColors_ofCorpus 20 { total := 1500000 }).2 _ _ t {} _ r accepted
    analyzed plain).lacks
  have nine : ((r.numbers 20).map missing).sum = 9 := by
    rw [numbers]
    decide
  exact ⟨t, r, accepted, analyzed, nine ▸ lacks⟩

/-- In color the count of the one kind stands in the third column and not in the eighth. -/
theorem withoutColors_ofCorpus_ne_redElk : ∃ t r,
    Tokenizer.ofVocabulary (colorOf "Color") [] = .ok t ∧ t.analyzeCorpus {} [redElk] = .ok r ∧
    (∀ card ∈ r.cards, Text.IsPlain card.text) ∧
    withoutColors (ofCorpus r 20 true) ≠ ofCorpus r 20 false := by
  obtain ⟨t, r, accepted, analyzed, plain, kinds, -⟩ := exists_redElk
  refine ⟨t, r, accepted, analyzed, plain, fun same => ?_⟩
  have isPlain := Tokenizer.isPlain_of_analyzeCorpus accepted analyzed plain
  have fills := ((lacksPadding_of_isPlain isPlain 20).eq_iff.1 same).kinds
  rw [kinds] at fills
  have := fills (.colorFilter, 1) (by decide)
  contradiction

end CorpusAnalysis

end RulesText
