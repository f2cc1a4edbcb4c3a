import RulesText.Proofs.Report.Plain
import RulesText.Report.Card

/-!
# The report of a card in color

Columns are padded before they are painted, and nothing but the paint depends on the palette. So
without color sequences the reports of two palettes agree, line by line, along the recursion over
capture trees.

## Main statements

* `Report.withoutColors_ofCard`: color adds nothing but color sequences to the report of a card.
-/

namespace RulesText

open Text

namespace Report

/-! ## Two palettes -/

section

variable (p q : Palette)

theorem withoutColors_coverage (c : Coverage) :
    withoutColors (coverage p c) = withoutColors (coverage q c) := by
  simp [coverage]

theorem map_withoutColors_heading (t : Text) :
    (heading p t).map withoutColors = (heading q t).map withoutColors := by
  simp [heading]

theorem map_withoutColors_title (t : Text) :
    (title p t).map withoutColors = (title q t).map withoutColors := by
  simp [title]

theorem withoutColors_tokenLine (line : Text) (t : Token) :
    withoutColors (tokenLine p line t) = withoutColors (tokenLine q line t) := by
  rw [tokenLine, tokenLine]
  cases t.label <;> simp

theorem withoutColors_captureValue (value : CaptureValue) :
    withoutColors (captureValue p value) = withoutColors (captureValue q value) := by
  cases value with
  | flag isSet => cases isSet <;> simp [captureValue]
  | choice | text | child => simp [captureValue]

/-- A field is followed by the lines of the tree that it holds. -/
theorem map_withoutColors_fieldLines (depth : Nat) {below below' : List (List Text)}
    (same : below.map (·.map withoutColors) = below'.map (·.map withoutColors))
    (f : CaptureField) : (fieldLines p depth below f).map withoutColors =
      (fieldLines q depth below' f).map withoutColors := by
  have nested : ∀ (trees : List (List Text)) (index : Nat),
      ((trees[index]?).getD []).map withoutColors =
        ((trees.map (·.map withoutColors))[index]?).getD [] := by
    intro trees index
    rw [List.getElem?_map]
    cases trees[index]? <;> rfl
  rw [fieldLines, fieldLines, List.map_cons, List.map_cons]
  congr 1
  · simp [withoutColors_captureValue p q]
  · cases f.value with
    | child index => exact (nested below index).trans (same ▸ (nested below' index).symm)
    | choice | flag | text => rfl

mutual

theorem map_withoutColors_captureLines (line : Text) (depth : Nat) : (t : Capture) →
    (captureLines p line depth t).map withoutColors =
      (captureLines q line depth t).map withoutColors
  | ⟨kind, span, fields, children⟩ => by
    have below := map_withoutColors_childLines line (depth + 2) children
    rw [captureLines, captureLines, List.map_cons, List.map_cons, List.map_flatMap,
      List.map_flatMap]
    congr 1
    · simp
    · exact congrArg fields.flatMap (funext fun f => map_withoutColors_fieldLines p q depth below f)

theorem map_withoutColors_childLines (line : Text) (depth : Nat) : (trees : List Capture) →
    (childLines p line depth trees).map (·.map withoutColors) =
      (childLines q line depth trees).map (·.map withoutColors)
  | [] => rfl
  | t :: rest => by
    rw [childLines, childLines, List.map_cons, List.map_cons,
      map_withoutColors_captureLines line depth t, map_withoutColors_childLines line depth rest]

end

theorem withoutColors_gapLine (g : Gap) :
    withoutColors (gapLine p g) = withoutColors (gapLine q g) := by
  simp [gapLine]

theorem map_withoutColors_captioned {caption caption' : Text} {lines lines' : List Text}
    (same : withoutColors caption = withoutColors caption')
    (rest : lines.map withoutColors = lines'.map withoutColors) :
    (captioned caption lines).map withoutColors =
      (captioned caption' lines').map withoutColors := by
  cases lines with
  | nil =>
    obtain rfl := List.map_eq_nil_iff.1 rest.symm
    rfl
  | cons line lines =>
    cases lines' with
    | nil => cases rest
    | cons line' lines' =>
      simp only [captioned, List.map_cons, Text.withoutColors_indented, same] at rest ⊢
      rw [rest]

theorem map_withoutColors_lineLines (l : LineAnalysis) :
    (lineLines p l).map withoutColors = (lineLines q l).map withoutColors := by
  have tokens : (l.tokens.map (tokenLine p l.text)).map withoutColors =
      (l.tokens.map (tokenLine q l.text)).map withoutColors := by
    rw [List.map_map, List.map_map]
    exact List.map_congr_left fun t _ => withoutColors_tokenLine p q l.text t
  have captures : (l.captures.flatMap (captureLines p l.text 2)).map withoutColors =
      (l.captures.flatMap (captureLines q l.text 2)).map withoutColors := by
    rw [List.map_flatMap, List.map_flatMap]
    exact congrArg l.captures.flatMap
      (funext fun t => map_withoutColors_captureLines p q l.text 2 t)
  have caption : ∀ color (t : Text),
      withoutColors (p.paint color t) = withoutColors (q.paint color t) := by simp
  have gaps : (l.gaps.map (gapLine p)).map withoutColors =
      (l.gaps.map (gapLine q)).map withoutColors := by
    rw [List.map_map, List.map_map]
    exact List.map_congr_left fun g _ => withoutColors_gapLine p q g
  rw [lineLines, lineLines, List.map_cons, List.map_cons]
  congr 1
  · simp
  · split
    · simp
    · simp only [List.map_append, tokens, List.map_cons, Text.withoutColors_indented,
        withoutColors_coverage p q]
      rw [map_withoutColors_captioned (caption _ _) captures,
        map_withoutColors_captioned (caption _ _) gaps]

theorem map_withoutColors_cardLines (card : CardAnalysis) (kinds : Nat) :
    (cardLines p card kinds).map withoutColors = (cardLines q card kinds).map withoutColors := by
  simp only [cardLines, List.map_append, List.map_flatMap, map_withoutColors_title p q,
    map_withoutColors_heading p q, map_withoutColors_lineLines p q, List.map_cons,
    Text.withoutColors_indented, withoutColors_coverage p q, Palette.withoutColors_dim]

end

/-! ## Without color -/

theorem isPlain_tenths (x : Float) : IsPlain (Decimal.tenths x) :=
  isPlain_append.2 ⟨isPlain_append.2 ⟨isPlain_ofNat _, by decide⟩, isPlain_ofNat _⟩

theorem isPlain_coverage (c : Coverage) : IsPlain (coverage ⟨false⟩ c) := by
  simp only [coverage, Palette.dim_disabled, Palette.paint_disabled, isPlain_append]
  simp only [isPlain_tenths, isPlain_ofNat, true_and, and_true]
  decide

theorem isPlain_heading {t : Text} (plain : IsPlain t) :
    ∀ line ∈ heading ⟨false⟩ t, IsPlain line := by
  simp only [heading, Palette.paint_disabled, List.forall_mem_cons, isPlain_append, plain]
  exact ⟨isPlain_nil, by decide, by simp⟩

theorem isPlain_title {t : Text} (plain : IsPlain t) : ∀ line ∈ title ⟨false⟩ t, IsPlain line := by
  simp only [title, Palette.paint_disabled, Palette.bold_disabled, List.forall_mem_cons,
    isPlain_append, plain]
  exact ⟨isPlain_nil, by decide, by simp⟩

theorem isPlain_tokenLine {line : Text} (plain : IsPlain line) (t : Token) :
    IsPlain (tokenLine ⟨false⟩ line t) := by
  have range : IsPlain (Text.padStart 3 (Text.ofNat t.span.start) ++ ".." ++
      Text.padEnd 3 (Text.ofNat t.span.stop)) :=
    isPlain_append.2 ⟨isPlain_append.2 ⟨isPlain_padStart _ (isPlain_ofNat _), by decide⟩,
      isPlain_padEnd _ (isPlain_ofNat _)⟩
  rw [tokenLine]
  cases t.label with
  | kind kind =>
    exact isPlain_indented 1 (isPlain_unwords_cons range (isPlain_unwords_cons (isPlain_name kind)
      (isPlain_unwords_cons (by decide) (isPlain_unwords_singleton (plain.slice _)))))
  | unmatched =>
    exact isPlain_indented 1 (isPlain_unwords_cons range (isPlain_unwords_cons (by decide)
      (isPlain_unwords_cons (by decide) (isPlain_unwords_singleton (plain.slice _)))))

theorem isPlain_captureValue {value : CaptureValue} (plain : value.IsPlain) :
    IsPlain (captureValue ⟨false⟩ value) := by
  cases value with
  | choice family member =>
    exact isPlain_append.2 ⟨isPlain_append.2 ⟨plain.1, by decide⟩, plain.2⟩
  | flag isSet => cases isSet <;> decide
  | text t => exact isPlain_inQuotes plain
  | child =>
    rw [captureValue]
    decide

theorem isPlain_fieldLines (depth : Nat) {below : List (List Text)}
    (nested : ∀ lines ∈ below, ∀ line ∈ lines, IsPlain line) {f : CaptureField}
    (plain : IsPlain f.name ∧ f.value.IsPlain) :
    ∀ line ∈ fieldLines ⟨false⟩ depth below f, IsPlain line := by
  have first : IsPlain (indented (depth + 1) (unwords [f.name ++ [':'],
      captureValue ⟨false⟩ f.value])) :=
    isPlain_indented _ (isPlain_unwords_cons (isPlain_append.2 ⟨plain.1, by decide⟩)
      (isPlain_unwords_singleton (isPlain_captureValue plain.2)))
  refine List.forall_mem_cons.2 ⟨first, fun line mem => ?_⟩
  split at mem
  · rename_i index _
    cases tree : below[index]? with
    | none => simp [tree] at mem
    | some lines =>
      rw [tree] at mem
      exact nested lines (List.mem_of_getElem? tree) line mem
  · cases mem

mutual

theorem isPlain_captureLines {line : Text} (plain : IsPlain line) (depth : Nat) : (t : Capture) →
    t.IsPlain → ∀ shown ∈ captureLines ⟨false⟩ line depth t, IsPlain shown
  | ⟨kind, span, fields, children⟩, all => by
    obtain ⟨own, inner⟩ := Capture.isPlain_mk.1 all
    have below := isPlain_childLines plain (depth + 2) children inner
    have range : IsPlain (Text.ofNat span.start ++ ".." ++ Text.ofNat span.stop) :=
      isPlain_append.2 ⟨isPlain_append.2 ⟨isPlain_ofNat _, by decide⟩, isPlain_ofNat _⟩
    rw [captureLines]
    refine List.forall_mem_cons.2 ⟨isPlain_indented depth (isPlain_unwords_cons (isPlain_name kind)
      (isPlain_unwords_cons range (isPlain_unwords_singleton (isPlain_inQuotes
        (plain.slice span))))), fun shown mem => ?_⟩
    obtain ⟨f, inside, mem⟩ := List.mem_flatMap.1 mem
    exact isPlain_fieldLines depth below (own f inside) shown mem

theorem isPlain_childLines {line : Text} (plain : IsPlain line) (depth : Nat) :
    (trees : List Capture) → (∀ t ∈ trees, t.IsPlain) →
      ∀ lines ∈ childLines ⟨false⟩ line depth trees, ∀ shown ∈ lines, IsPlain shown
  | [], _ => by simp [childLines]
  | t :: rest, all => by
    obtain ⟨first, later⟩ := List.forall_mem_cons.1 all
    rw [childLines]
    exact List.forall_mem_cons.2 ⟨isPlain_captureLines plain depth t first,
      isPlain_childLines plain depth rest later⟩

end

theorem isPlain_gapLine {g : Gap} (plain : IsPlain g.text) : IsPlain (gapLine ⟨false⟩ g) :=
  isPlain_indented 2 (isPlain_unwords_cons (isPlain_label g.before)
    (isPlain_unwords_cons plain (isPlain_unwords_singleton (isPlain_label g.after))))

theorem isPlain_captioned {caption : Text} {lines : List Text} (plain : IsPlain caption)
    (all : ∀ line ∈ lines, IsPlain line) : ∀ line ∈ captioned caption lines, IsPlain line := by
  cases lines with
  | nil => simp [captioned]
  | cons first lines =>
    exact List.forall_mem_cons.2 ⟨isPlain_nil,
      List.forall_mem_cons.2 ⟨isPlain_indented 1 plain, all⟩⟩

theorem isPlain_lineLines {l : LineAnalysis} (plain : l.IsPlain) :
    ∀ line ∈ lineLines ⟨false⟩ l, IsPlain line := by
  refine List.forall_mem_cons.2 ⟨isPlain_indented 1 plain.text, ?_⟩
  split
  · exact List.forall_mem_singleton.2 (by decide)
  · simp only [List.forall_mem_append]
    refine ⟨⟨⟨fun shown mem => ?_, isPlain_captioned (by decide) fun shown mem => ?_⟩,
      isPlain_captioned (by decide) fun shown mem => ?_⟩,
      List.forall_mem_singleton.2 (isPlain_indented 1 (isPlain_coverage l.coverage))⟩
    · obtain ⟨t, -, rfl⟩ := List.mem_map.1 mem
      exact isPlain_tokenLine plain.text t
    · obtain ⟨t, inside, mem⟩ := List.mem_flatMap.1 mem
      exact isPlain_captureLines plain.text 2 t (plain.captures t inside) shown mem
    · obtain ⟨g, inside, rfl⟩ := List.mem_map.1 mem
      exact isPlain_gapLine (plain.gaps g inside)

theorem isPlain_cardTitle {name : Text} (plain : IsPlain name) : IsPlain (cardTitle name) := by
  rw [cardTitle]
  split
  · decide
  · exact isPlain_append.2 ⟨by decide, isPlain_inQuotes plain⟩

theorem isPlain_cardLines {card : CardAnalysis} (plain : card.IsPlain) (kinds : Nat) :
    ∀ line ∈ cardLines ⟨false⟩ card kinds, IsPlain line := by
  simp only [cardLines, List.forall_mem_append]
  refine ⟨⟨⟨⟨isPlain_title (isPlain_cardTitle plain.name),
    List.forall_mem_singleton.2 (isPlain_indented 1 (isPlain_append.2
      ⟨isPlain_ofNat kinds, by decide⟩))⟩, fun shown mem => ?_⟩, isPlain_heading (by decide)⟩,
    List.forall_mem_cons.2 ⟨isPlain_indented 1 (isPlain_coverage card.coverage),
      List.forall_mem_singleton.2 isPlain_nil⟩⟩
  obtain ⟨⟨l, place⟩, inside, mem⟩ := List.mem_flatMap.1 mem
  rcases List.mem_append.1 mem with mem | mem
  · exact isPlain_heading (isPlain_append.2 ⟨by decide, isPlain_ofNat place⟩) shown mem
  · exact isPlain_lineLines (plain.lines l (List.fst_mem_of_mem_zipIdx inside)) shown mem

/-! ## The report -/

theorem withoutColors_color (card : CardAnalysis) (kinds : Nat) :
    withoutColors (ofCard card kinds true) = withoutColors (ofCard card kinds false) := by
  rw [ofCard, ofCard, withoutColors_render, withoutColors_render,
    map_withoutColors_cardLines ⟨true⟩ ⟨false⟩]

theorem withoutColors_color_of_isPlain {card : CardAnalysis} (plain : card.IsPlain) (kinds : Nat) :
    withoutColors (ofCard card kinds true) = ofCard card kinds false :=
  (withoutColors_color card kinds).trans
    (isPlain_render (isPlain_cardLines plain kinds)).withoutColors_eq

/-- The reports with and without color always agree after color sequences are taken out of both.
Where all texts of the analysis are plain, taking them out of the one with color gives the other.
So it does for what is analyzed, if the name and the lines of the card are plain and so are the
labels of choices in the vocabulary, and hooks make plain trees of plain lines. -/
theorem withoutColors_ofCard (card : CardAnalysis) (kinds : Nat) :
    withoutColors (ofCard card kinds true) = withoutColors (ofCard card kinds false) ∧
    (card.IsPlain → withoutColors (ofCard card kinds true) = ofCard card kinds false) ∧
    ∀ (v : Vocabulary) (priority : List Kind) (t : Tokenizer) (o : Options) (item : CardItem),
      Tokenizer.ofVocabulary v priority = .ok t → t.analyzeCard o item = .ok card →
      v.HasPlainLabels → v.HooksKeep Hook.IsPlain → IsPlain card.name →
      (∀ l ∈ card.lines, IsPlain l.text) →
      withoutColors (ofCard card kinds true) = ofCard card kinds false :=
  ⟨withoutColors_color card kinds, fun plain => withoutColors_color_of_isPlain plain kinds,
    fun _ _ _ _ _ accepted analyzed labels hooks name lines => withoutColors_color_of_isPlain
      (Tokenizer.isPlain_of_analyzeCard accepted labels hooks analyzed name lines) kinds⟩

/-- A phrase that is one choice of a family with the given name. -/
def colorOf (family : Text) : Vocabulary := [
  { kind := .colorFilter
    template := "{color}"
    fields := [.choice "color" { name := family, members := [⟨"Red", none⟩] }] }]

def redElk : CardItem := ⟨"Opt", "Red elk"⟩

/-- Whether the report of the card without color shows the choice as it is. -/
def showsChoice (family : Text) : Bool :=
  (Tokenizer.ofVocabulary (colorOf family) []).toOption.any fun t =>
    (t.analyzeCard {} redElk).toOption.any fun card =>
      decide (IsPlain card.name ∧ ∀ l ∈ card.lines, IsPlain l.text) &&
        (cardLines ⟨false⟩ card 1)[11]? == some ("      color: " ++ family ++ "::Red")

theorem exists_redElk (family : Text) (check : showsChoice family) : ∃ t card,
    Tokenizer.ofVocabulary (colorOf family) [] = .ok t ∧ t.analyzeCard {} redElk = .ok card ∧
    (IsPlain card.name ∧ ∀ l ∈ card.lines, IsPlain l.text) ∧
    ("      color: " ++ family ++ "::Red" : Text) <:+: ofCard card 1 false := by
  obtain ⟨t, accepted, check⟩ := (Option.any_eq_true _ _).1 check
  obtain ⟨card, analyzed, check⟩ := (Option.any_eq_true _ _).1 check
  simp only [Bool.and_eq_true, decide_eq_true_eq, beq_iff_eq] at check
  exact ⟨t, card, Regex.Searcher.toOption_eq_some_iff.1 accepted,
    Regex.Searcher.toOption_eq_some_iff.1 analyzed, check.1,
    isInfix_render (List.mem_of_getElem? check.2)⟩

theorem withoutColors_redElk : ∃ t card, Tokenizer.ofVocabulary (colorOf "Color") [] = .ok t ∧
    t.analyzeCard {} redElk = .ok card ∧ "      color: Color::Red" <:+: ofCard card 1 false ∧
    withoutColors (ofCard card 1 true) = ofCard card 1 false := by
  obtain ⟨t, card, accepted, analyzed, ⟨name, lines⟩, shown⟩ :=
    exists_redElk "Color" (by decide +kernel)
  have labels : (colorOf "Color").HasPlainLabels := by decide
  have hooks : (colorOf "Color").HooksKeep Hook.IsPlain :=
    .of_loyaltyCost (by simp [colorOf]) LoyaltyCost.isPlain_readBack
  exact ⟨t, card, accepted, analyzed, shown, (withoutColors_ofCard card 1).2.2 _ _ t {} redElk
    accepted analyzed labels hooks name lines⟩

/-- A family can be named with a color sequence, which the reports with and without color show. -/
theorem withoutColors_ne_redElk : ∃ t card,
    Tokenizer.ofVocabulary (colorOf "\x1b[1mColor") [] = .ok t ∧
    t.analyzeCard {} redElk = .ok card ∧ IsPlain card.name ∧
    (∀ l ∈ card.lines, IsPlain l.text) ∧
    withoutColors (ofCard card 1 true) ≠ ofCard card 1 false := by
  obtain ⟨t, card, accepted, analyzed, ⟨name, lines⟩, shown⟩ :=
    exists_redElk "\x1b[1mColor" (by decide +kernel)
  refine ⟨t, card, accepted, analyzed, name, lines, fun same => ?_⟩
  have sequence : escapeSequence "1" <:+: ofCard card 1 false :=
    List.IsInfix.trans ⟨"      color: ", "Color::Red", rfl⟩ shown
  have shorter := length_withoutColors_lt (by decide) sequence
  rw [← withoutColors_color, same] at shorter
  exact Nat.lt_irrefl _ shorter

end Report

end RulesText
