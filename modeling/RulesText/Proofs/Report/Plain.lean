import RulesText.Proofs.Analysis.Provenance
import RulesText.Proofs.Gap.Candidates
import RulesText.Proofs.Gap.WholeGaps
import RulesText.Proofs.Report.Colors
import RulesText.Proofs.Template
import RulesText.Proofs.Tokenizer.ReadBack

/-!
# Analyses of plain texts

An analysis holds slices of lines, names of fields, which are names of placeholders, and labels of
choices, which the vocabulary chooses freely. So it is plain if the lines and these labels are, and
the trees that hooks make of plain lines.

## Main definitions

* `CardAnalysis.IsPlain`, `CorpusAnalysis.IsPlain`: all texts that an analysis holds are plain.
* `Vocabulary.HasPlainLabels`: the families and the members of a vocabulary have plain names.
* `Hook.IsPlain`: a hook makes plain trees of plain lines.

## Main statements

* `Tokenizer.isPlain_of_analyzeCard`: the analysis of a card with plain lines is plain.
* `Tokenizer.isPlain_of_analyzeCorpus`: the analysis of a corpus with plain texts is plain.
-/

namespace RulesText

open Text (IsPlain)

def CaptureValue.IsPlain : CaptureValue → Prop
  | .choice family member _ => Text.IsPlain family ∧ Text.IsPlain member
  | .text t => Text.IsPlain t
  | .flag _ | .child _ => True

/-- The fields of all nodes of a tree have plain names and values. -/
def Capture.IsPlain (t : Capture) : Prop :=
  ∀ node ∈ t.walk, ∀ f ∈ node.fields, Text.IsPlain f.name ∧ f.value.IsPlain

theorem Capture.isPlain_mk {kind : Kind} {span : Span} {fields : List CaptureField}
    {children : List Capture} : IsPlain ⟨kind, span, fields, children⟩ ↔
      (∀ f ∈ fields, Text.IsPlain f.name ∧ f.value.IsPlain) ∧ ∀ c ∈ children, c.IsPlain := by
  constructor
  · exact fun h => ⟨h _ (mem_walk.2 (.inl rfl)), fun c child node mem =>
      h node (mem_walk.2 (.inr ⟨c, child, mem⟩))⟩
  · rintro ⟨fields, children⟩ node mem
    rcases mem_walk.1 mem with rfl | ⟨c, child, mem⟩
    · exact fields
    · exact children c child node mem

structure LineAnalysis.IsPlain (l : LineAnalysis) : Prop where
  text : Text.IsPlain l.text
  captures : ∀ t ∈ l.captures, t.IsPlain
  gaps : ∀ g ∈ l.gaps, Text.IsPlain g.text

structure CardAnalysis.IsPlain (card : CardAnalysis) : Prop where
  name : Text.IsPlain card.name
  lines : ∀ l ∈ card.lines, l.IsPlain

/-- The family that a field chooses from. -/
def FieldKind.family? : FieldKind → Option Family
  | .choice family => some family
  | _ => none

/-- The labels that choices are shown with are plain. -/
def Vocabulary.HasPlainLabels (v : Vocabulary) : Prop :=
  ∀ phrase ∈ v, ∀ f ∈ phrase.fields, ∀ family ∈ f.kind.family?,
    IsPlain family.name ∧ ∀ m ∈ family.members, IsPlain m.name

instance (v : Vocabulary) : Decidable v.HasPlainLabels :=
  inferInstanceAs (Decidable (∀ phrase ∈ v, ∀ f ∈ phrase.fields, ∀ family ∈ f.kind.family?, _))

/-- The hook makes plain trees of plain lines. -/
def Hook.IsPlain (kind : Kind) (hook : Hook) : Prop :=
  ∀ line span tree, Text.IsPlain line → hook kind line span = .ok tree → tree.IsPlain

variable {v : Vocabulary} {priority : List Kind} {line : Text} {kind : Kind} {span : Span}

theorem Template.IsName.isPlain {name : Text} (h : IsName name) : IsPlain name := by
  intro mem
  have inside := h.chars _ mem
  contradiction

/-- The gaps of a sound line are slices of it. -/
theorem LineAnalysis.IsSound.isPlain_gap {l : LineAnalysis} (sound : l.IsSound)
    (plain : Text.IsPlain l.text) {g : Gap} (mem : g ∈ l.gaps) : Text.IsPlain g.text := by
  rw [← Text.slice_eq (sound.fits g mem).slice]
  exact plain.slice g.span

namespace LoyaltyCost

theorem subset_of_amount? {t amount : Text} (h : amount? t = some amount) : amount ⊆ t := by
  rw [amount?] at h
  split at h
  · obtain rfl := Option.some.inj h
    exact List.takeWhile_subset _
  · split at h
    · rename_i letter
      obtain rfl := Option.some.inj h
      rw [beq_iff_eq.1 letter]
      simp
    · cases h

theorem subset_of_ofText? {t : Text} {l : LoyaltyCost} (h : ofText? t = some l) :
    l.amount ⊆ t := by
  cases t with
  | nil => cases h
  | cons c rest =>
    rw [ofText?] at h
    split at h
    all_goals obtain ⟨amount, found, rfl⟩ := Option.map_eq_some_iff.1 h
    · exact List.subset_cons_of_subset c (subset_of_amount? found)
    · exact subset_of_amount? found

theorem isPlain_capture {l : LoyaltyCost} (plain : IsPlain l.amount) :
    (l.capture kind span).IsPlain := by
  intro node mem
  rw [walk_capture, List.mem_singleton] at mem
  subst mem
  simp only [capture, List.forall_mem_cons]
  exact ⟨⟨by decide, trivial⟩, ⟨by decide, plain⟩, by simp⟩

theorem isPlain_readBack (kind : Kind) : Hook.IsPlain kind readBack := by
  intro line span tree plain read
  obtain ⟨cost, reads, rfl⟩ := readBack_eq_ok read
  exact isPlain_capture ((plain.slice span).subset (subset_of_ofText? reads))

end LoyaltyCost

namespace Lexicon

variable {entries : List LexiconEntry} {e : LexiconEntry} {phrase : Phrase} {text : Text}
  {start : Nat} {nested : Kind → Span → Except Fault Capture} {m : Match}
  {readings : List FieldReading} {tree : Capture} {f : LexiconField} {found? : Option Span}
  {r : FieldReading}

/-- A value that is read is a slice, or a choice of the field's family. -/
theorem ReadsAs.isPlain (h : ReadsAs nested text start f found? r) (plain : IsPlain text)
    (labels : ∀ family ∈ f.kind.family?,
      IsPlain family.name ∧ ∀ m ∈ family.members, IsPlain m.name) : r.1.value.IsPlain := by
  cases h with
  | flag | nested => trivial
  | words => exact plain.slice _
  | choice kind _ isMember =>
    obtain ⟨family, members⟩ := labels _ (congrArg FieldKind.family? kind)
    exact ⟨family, members _ (List.mem_of_getElem? isMember)⟩

theorem isPlain_fields (describes : e.Describes v phrase) (labels : v.HasPlainLabels)
    (plain : IsPlain text) (all : Readings nested text start m e.fields readings) :
    ∀ g ∈ (assembleTree kind span readings).fields, IsPlain g.name ∧ g.value.IsPlain := by
  intro g mem
  obtain ⟨place, r, at_place, rfl⟩ := mem_fields_assembleTree.1 mem
  obtain ⟨f, inside, reads⟩ := all.read r (List.mem_of_getElem? at_place)
  obtain ⟨declared, found, built⟩ := describes.field?_eq inside
  obtain ⟨-, same, -⟩ := of_buildField built
  have name : f.name ∈ phrase.placeholders := describes.map_name ▸ List.mem_map_of_mem inside
  constructor
  · rw [name_fieldOf, reads.name]
    exact (Template.isName_of_mem_placeholders name).isPlain
  · have value := reads.isPlain plain fun family choice =>
      labels phrase (List.mem_of_find?_eq_some describes.declared) declared
        (List.mem_of_find?_eq_some found) family (same ▸ choice)
    unfold fieldOf
    split
    · exact value
    · trivial

/-- What is read from a plain line is plain. -/
theorem isPlain_of_readWithin (described : ∀ e ∈ entries, ∃ phrase, e.Describes v phrase)
    (labels : v.HasPlainLabels) (hooks : v.HooksKeep Hook.IsPlain) (plain : IsPlain line)
    (h : readWithin entries line kind span = .ok tree) : tree.IsPlain := by
  induction size : entries.length using Nat.strongRecOn generalizing entries kind span tree with
  | _ size' ih =>
    obtain ⟨e, found, read⟩ := readWithin_eq_ok.1 h
    obtain ⟨rfl, ⟨phrase, describes⟩, less, rest⟩ := Lexicon.describes_of_find? described found
    rcases read with ⟨hook, reads, read⟩ | ⟨-, m, readings, -, fields, rfl⟩
    · exact describes.keeps hooks reads line span tree plain read
    · have all := readings_of_readFields fields
      intro node mem
      rcases Capture.mem_walk.1 mem with rfl | ⟨c, child, mem⟩
      · exact isPlain_fields describes labels (plain.slice span) all
      · obtain ⟨-, -, other, s, -, read⟩ := exists_nested_of_child all child
        exact ih _ (size ▸ less) rest read rfl node mem

end Lexicon

namespace Tokenizer

variable {t : Tokenizer} {o : Options}

theorem mem_readTokens {tokens : List Token} {trees : List Capture} {tree : Capture}
    (h : t.readTokens line tokens = .ok trees) (mem : tree ∈ trees) :
    ∃ kind span, t.lexicon.readBack kind line span = .ok tree := by
  induction tokens generalizing trees with
  | nil =>
    obtain rfl := Except.ok.inj h
    cases mem
  | cons token tokens ih =>
    simp only [readTokens, bind_eq_ok] at h
    obtain ⟨tree?, first, later, rest, h⟩ := h
    obtain rfl := Except.ok.inj h
    rcases List.mem_append.1 mem with own | mem
    · rw [Option.mem_toList.1 own, Lexicon.readToken] at first
      split at first
      · rename_i kind _
        refine ⟨kind, token.span, ?_⟩
        cases read : t.lexicon.readBack kind line token.span with
        | error fault => rw [read] at first; cases first
        | ok other => rw [read] at first; exact congrArg _ (Option.some.inj (Except.ok.inj first))
      · cases first
    · exact ih rest mem

/-- The trees of a line have been read from it. -/
theorem mem_captures_of_analyzeLine {l : LineAnalysis} (ok : t.analyzeLine o line = .ok l)
    {tree : Capture} (mem : tree ∈ l.captures) :
    ∃ kind span, t.lexicon.readBack kind line span = .ok tree := by
  rw [analyzeLine] at ok
  cases asked : o.captures with
  | false =>
    simp only [asked, Bool.false_eq_true, if_false, bind_eq_ok] at ok
    obtain ⟨captures, none, gaps, -, ok⟩ := ok
    obtain rfl := Except.ok.inj none
    obtain rfl := Except.ok.inj ok
    cases mem
  | true =>
    simp only [asked, if_true, bind_eq_ok] at ok
    obtain ⟨captures, read, gaps, -, ok⟩ := ok
    obtain rfl := Except.ok.inj ok
    exact mem_readTokens read mem

/-- A card with a plain name and plain lines has a plain analysis, if the labels of choices are
plain and hooks make plain trees. -/
theorem isPlain_of_analyzeCard (h : ofVocabulary v priority = .ok t) (labels : v.HasPlainLabels)
    (hooks : v.HooksKeep Hook.IsPlain) {item : CardItem} {card : CardAnalysis}
    (ok : t.analyzeCard o item = .ok card) (name : IsPlain card.name)
    (lines : ∀ l ∈ card.lines, IsPlain l.text) : card.IsPlain := by
  have sound := isSound_of_analyzeCard h ok
  have described : ∀ e ∈ t.lexicon.entries, ∃ phrase, e.Describes v phrase :=
    fun e mem => Lexicon.exists_describes (build_of_ofVocabulary h) mem
  obtain ⟨analyses, analyzed, eq⟩ := bind_eq_ok.1 ok
  obtain rfl := Except.ok.inj eq
  refine ⟨name, fun l mem => ⟨lines l mem, fun tree captured => ?_,
    fun g gap => (sound.lines l mem).isPlain_gap (lines l mem) gap⟩⟩
  obtain ⟨line, -, ok⟩ := exists_of_forall₂ (mapM_eq_ok.1 analyzed).flip mem
  obtain ⟨kind, span, read⟩ := mem_captures_of_analyzeLine ok captured
  rw [← (of_analyzeLine ok).1] at read
  exact Lexicon.isPlain_of_readWithin described labels hooks (lines l mem) read

end Tokenizer

/-! ## Corpora -/

structure CorpusAnalysis.IsPlain (r : CorpusAnalysis) : Prop where
  cards : ∀ card ∈ r.cards, Text.IsPlain card.text
  gaps : ∀ e ∈ r.concordance, Text.IsPlain e.gap.text
  repeats : ∀ f ∈ r.repeats, Text.IsPlain f.text
  candidates : ∀ c ∈ r.candidates, Text.IsPlain c.stem ∧ ∀ w ∈ c.nextWords, Text.IsPlain w
  /-- The labels that are counted next to gaps. -/
  labels : ∀ p ∈ r.collocations, ∀ label ∈ p.2.before ++ p.2.after, Text.IsPlain label.1

theorem isPlain_label (n : Neighbour) : IsPlain n.label := by
  cases n with
  | lineStart | lineEnd => decide
  | kind kind => exact Text.isPlain_name kind

theorem CardAnalysis.IsSound.isPlain_lines {card : CardAnalysis} (sound : card.IsSound)
    (plain : Text.IsPlain card.text) : ∀ l ∈ card.lines, Text.IsPlain l.text := by
  intro l mem
  obtain ⟨before, after, eq⟩ := List.append_of_mem mem
  rw [sound.text, eq, List.map_append, List.map_cons, Text.join_lines] at plain
  exact (Text.isPlain_append.1 (Text.isPlain_append.1 plain).2).1

theorem Concordance.mem_texts_of_mem_weighted {c : Concordance} {p : Text × Nat}
    (mem : p ∈ c.weighted) : p.1 ∈ c.texts :=
  (Tally.mem_ofList.1 (List.mem_mergeSort.1 mem)).1

/-- The stems of candidates and the words that follow them are words of texts. -/
theorem Candidate.isPlain_of_mem_rank {weighted : List (Text × Nat)}
    (plain : ∀ e ∈ weighted, IsPlain e.1) {c : Candidate} (mem : c ∈ rank weighted) :
    IsPlain c.stem ∧ ∀ w ∈ c.nextWords, IsPlain w := by
  obtain ⟨stems, areStems, all⟩ := exists_stems_rank weighted
  obtain ⟨p, listed, isOf⟩ := exists_of_forall₂ all.flip mem
  obtain ⟨-, e, inside, part⟩ := (areStems.mem_iff p).1 listed
  constructor
  · rw [isOf.stem]
    exact Text.isPlain_unwords fun w mem =>
      Text.isPlain_of_mem_words (plain e inside) (part.subset mem)
  · intro w mem
    obtain ⟨e, inside, part⟩ := (isOf.mem_nextWords w).1 mem
    exact Text.isPlain_of_mem_words (plain e inside) (part.subset (by simp))

/-- An excerpt is made of parts of the card's text. -/
theorem Occurrence.isPlain_of_excerpt? {e : Occurrence} {t : Text} {x : Excerpt}
    (found : e.excerpt? t = some x) (plain : IsPlain t) :
    IsPlain x.before ∧ IsPlain x.middle ∧ IsPlain x.after := by
  rw [excerpt?] at found
  split at found
  · cases found
  · obtain ⟨⟨front, rest⟩, first, found⟩ := Option.bind_eq_some_iff.1 found
    obtain ⟨⟨middle, back⟩, second, found⟩ := Option.bind_eq_some_iff.1 found
    dsimp only at found
    split at found
    · cases found
    · obtain rfl := Option.some.inj found
      obtain ⟨rfl, -⟩ := Text.splitAt?_eq_some_iff.1 first
      obtain ⟨rfl, -⟩ := Text.splitAt?_eq_some_iff.1 second
      obtain ⟨front, rest⟩ := Text.isPlain_append.1 plain
      obtain ⟨middle, back⟩ := Text.isPlain_append.1 rest
      refine ⟨front.subset fun c mem => ?_, middle, back.subset (List.takeWhile_subset _)⟩
      exact List.mem_reverse.1 (List.takeWhile_subset _ (List.mem_reverse.1 mem))

namespace CorpusAnalysis

theorem isPlain_ofCards {cards : List CardAnalysis} (sound : ∀ card ∈ cards, card.IsSound)
    (plain : ∀ card ∈ cards, Text.IsPlain card.text) : (ofCards cards).IsPlain := by
  have gaps : ∀ e ∈ concordanceOf cards, Text.IsPlain e.gap.text := by
    intro e mem
    obtain ⟨card, at_place, mem⟩ := mem_concordanceOf mem
    have inside := List.mem_of_getElem? at_place
    obtain ⟨before, l, after, lines, -, -, gap, -⟩ := mem_gapsOfLines mem
    have listed : l ∈ card.lines := by simp [lines]
    exact ((sound card inside).lines l listed).isPlain_gap
      ((sound card inside).isPlain_lines (plain card inside) l listed) gap
  have texts : ∀ t ∈ (concordanceOf cards).texts, Text.IsPlain t := by
    intro t mem
    obtain ⟨e, occurs, rfl⟩ := List.mem_map.1 mem
    exact gaps e occurs
  refine ⟨plain, gaps, fun f mem => ?_, fun c mem => ?_, fun p mem label counted => ?_⟩
  · obtain ⟨w, -, text, e, mem, part⟩ := Repeat.exists_run_of_mem mem
    rw [text]
    exact Text.isPlain_unwords fun x inside =>
      Text.isPlain_of_mem_words (gaps e mem) (part.subset inside)
  · exact Candidate.isPlain_of_mem_rank
      (fun e mem => texts e.1 (Concordance.mem_texts_of_mem_weighted mem)) mem
  · obtain ⟨text, -, rfl⟩ := List.mem_map.1 mem
    rcases List.mem_append.1 counted with counted | counted
    all_goals
      obtain ⟨e, -, same⟩ := List.mem_map.1 (Tally.mem_ofList.1 counted).1
      rw [← same]
      exact isPlain_label _

end CorpusAnalysis

/-- A corpus with plain texts has a plain analysis. -/
theorem Tokenizer.isPlain_of_analyzeCorpus {t : Tokenizer} {o : Options} {items : List CardItem}
    {r : CorpusAnalysis} (h : ofVocabulary v priority = .ok t)
    (ok : t.analyzeCorpus o items = .ok r)
    (plain : ∀ card ∈ r.cards, IsPlain card.text) : r.IsPlain := by
  obtain ⟨eq, analyzed⟩ := of_analyzeCorpus ok
  rw [eq]
  refine CorpusAnalysis.isPlain_ofCards (fun card mem => ?_) plain
  obtain ⟨item, -, ok⟩ := analyzed card mem
  exact isSound_of_analyzeCard h ok

end RulesText
