import RulesText.Analysis.Line
import RulesText.Proofs.Capture.Checks
import RulesText.Proofs.Pattern.Independence

/-!
# Checking a vocabulary phrase by phrase

The entry of a phrase is determined by the vocabulary alone. So the check of a lexicon can be made
for one phrase at a time, without the entries of the others; and if every phrase keeps within a
share of the limit on all expressions together, then the vocabulary has a tokenizer.

## Main definitions

* `Lexicon.passes`: the check of one phrase.

## Main statements

* `Tokenizer.exists_isFaithful`: a vocabulary all of whose phrases pass has a tokenizer with a
  faithful lexicon.
-/

namespace RulesText

open Compiler (Renders outcome)

namespace Lexicon

variable {v : Vocabulary} {l : Lexicon} {phrase : Phrase} {e : LexiconEntry} {share : Kind → Nat}

/-- Whether the phrases that are nested in an entry are read field by field and have their own
expressions in it. -/
def inlinesFrom (v : Vocabulary) (e : LexiconEntry) : Bool :=
  e.fields.all fun f =>
    match f.kind with
    | .nested other => (v.find? (·.kind == other)).any (·.reading == .fields) &&
        (outcome v [] other).toOption.any fun p => (Regex.parse? p.source).any fun r =>
          e.regex.namedGroups.contains (f.name, r.rename (Pattern.qualified f.name))
    | _ => true

/-- Whether an entry is read back faithfully, by the vocabulary alone. -/
def passesEntry (v : Vocabulary) (e : LexiconEntry) : Bool :=
  !e.regex.looksInLoop &&
    match e.reading with
    | .fields => e.isFaithful && inlinesFrom v e
    | .loyaltyCost => e.regex == LoyaltyCost.expression
    | .hook _ => false

/-- Whether a phrase has an entry that is read back faithfully and keeps within a share of the
limit on all expressions together. -/
def passes (v : Vocabulary) (share : Kind → Nat) (phrase : Phrase) : Bool :=
  (entryOf v phrase).toOption.any fun e =>
    e.regex.footprintBound ≤ share phrase.kind && passesEntry v e

/-- A lexicon has the entries of its phrases. -/
theorem entries_of_build (distinct : (v.map (·.kind)).Nodup) :
    build v = .ok l ↔ List.Forall₂ (fun phrase e => entryOf v phrase = .ok e) v l.entries := by
  rw [build_eq_mapM distinct, bind_eq_ok, ← mapM_eq_ok]
  constructor
  · rintro ⟨entries, all, eq⟩
    obtain rfl := Except.ok.inj eq
    exact all
  · exact fun all => ⟨l.entries, all, rfl⟩

/-- The nested expressions that the vocabulary determines are those of the lexicon. -/
theorem inlines_of_inlinesFrom (built : build v = .ok l) (check : inlinesFrom v e) :
    l.inlines e := by
  refine List.all_eq_true.2 fun f mem => ?_
  have field := List.all_eq_true.1 check f mem
  split
  · rename_i other nested
    simp only [nested, Bool.and_eq_true, Option.any_eq_true] at field
    obtain ⟨⟨phrase, declared, reading⟩, p, rendered, r, parsed, inlined⟩ := field
    obtain ⟨inner, mem, describes⟩ :=
      exists_of_forall₂ (describes_of_build built).flip (List.mem_of_find?_eq_some declared)
    obtain rfl : inner.kind = other :=
      (Compiler.kind_of_find? describes.declared).symm.trans (Compiler.kind_of_find? declared)
    have same : outcome v [] inner.kind = .ok inner.pattern :=
      Compiler.outcome_of_renders describes.renders (by simp [Compiler.Descends])
    rw [same] at rendered
    obtain rfl := Option.some.inj rendered
    obtain rfl := Option.some.inj ((parse_eq_ok describes.regex).symm.trans parsed)
    rw [find?_of_build built mem, Option.any_some, describes.reading, reading, inlined]
    rfl
  · rfl

theorem isFaithful_of_passesEntry (built : build v = .ok l)
    (all : ∀ e ∈ l.entries, passesEntry v e) : l.isFaithful := by
  refine List.all_eq_true.2 fun e mem => ?_
  have check := all e mem
  unfold passesEntry at check
  cases reading : e.reading with
  | loyaltyCost | hook => simpa only [reading] using check
  | fields =>
    simp only [reading, Bool.and_eq_true] at check ⊢
    exact ⟨check.1, check.2.1, inlines_of_inlinesFrom built check.2.2⟩

theorem passes_iff : passes v share phrase ↔ ∃ e, entryOf v phrase = .ok e ∧
    e.regex.footprintBound ≤ share phrase.kind ∧ passesEntry v e := by
  simp only [passes, Option.any_eq_true, Regex.Searcher.toOption_eq_some_iff, Bool.and_eq_true,
    decide_eq_true_eq]

/-- A vocabulary has a faithful lexicon if every phrase passes. -/
theorem exists_build (distinct : (v.map (·.kind)).Nodup)
    (all : ∀ phrase ∈ v, passes v share phrase) : ∃ l, build v = .ok l ∧ l.isFaithful ∧
      List.Forall₂ (fun phrase e => e.regex.footprintBound ≤ share phrase.kind) v l.entries := by
  obtain ⟨entries, ok⟩ := exists_mapM_eq_ok fun phrase mem =>
    (passes_iff.1 (all phrase mem)).imp fun _ => And.left
  have own := mapM_eq_ok.1 ok
  have built : build v = .ok ⟨entries⟩ := (entries_of_build distinct).2 own
  have checked : List.Forall₂ (fun phrase e => e.regex.footprintBound ≤ share phrase.kind ∧
      passesEntry v e) v entries := by
    refine ((List.forall₂_and_left v entries).2 ⟨all, own⟩).imp ?_
    rintro phrase e ⟨check, ok⟩
    obtain ⟨e', ok', check⟩ := passes_iff.1 check
    obtain rfl := Except.ok.inj (ok.symm.trans ok')
    exact check
  refine ⟨⟨entries⟩, built, isFaithful_of_passesEntry built fun e mem => ?_,
    checked.imp fun _ _ => And.left⟩
  obtain ⟨phrase, -, check⟩ := exists_of_forall₂ checked.flip mem
  exact check.2

end Lexicon

namespace Tokenizer

variable {v : Vocabulary} {l : Lexicon} {share : Kind → Nat} {priority : List Kind}

theorem exists_prioritized (declared : ∀ kind ∈ priority, (l.find? kind).isSome)
    (done : List LexiconEntry) : ∃ first, prioritized l done priority = .ok first := by
  induction priority generalizing done with
  | nil => exact ⟨done, rfl⟩
  | cons kind priority ih =>
    obtain ⟨here, declared⟩ := List.forall_mem_cons.1 declared
    obtain ⟨e, found⟩ := Option.isSome_iff_exists.1 here
    rw [prioritized, found]
    exact ih declared _

theorem foldl_footprintBound_le {rs : List Regex} {shares : List Nat} {n m : Nat}
    (all : List.Forall₂ (fun share r => r.footprintBound ≤ share) shares rs) (le : n ≤ m) :
    rs.foldl (fun n r => n + r.footprintBound + 512) n ≤
      shares.foldl (fun m share => m + share + 512) m := by
  induction all generalizing n m with
  | nil => exact le
  | cons own _ ih => exact ih (Nat.add_le_add_right (Nat.add_le_add le own) 512)

/-- A vocabulary has a tokenizer with a faithful lexicon, if every phrase passes and the shares
together keep within the limit. -/
theorem exists_isFaithful (distinct : (v.map (·.kind)).Nodup)
    (all : ∀ phrase ∈ v, Lexicon.passes v share phrase)
    (small : (v.map fun phrase => share phrase.kind).foldl (fun m share => m + share + 512) 512 ≤
      patternsLimit)
    (declared : ∀ kind ∈ priority, kind ∈ v.map (·.kind)) :
    ∃ t, ofVocabulary v priority = .ok t ∧ t.lexicon.isFaithful := by
  obtain ⟨l, built, faithful, bounds⟩ := Lexicon.exists_build distinct all
  have found : ∀ kind ∈ priority, (l.find? kind).isSome := by
    intro kind mem
    have inside := declared kind mem
    rw [← Lexicon.map_kind_of_build built] at inside
    obtain ⟨e, entry, rfl⟩ := List.mem_map.1 inside
    exact Option.isSome_of_eq_some (Lexicon.find?_of_build built entry)
  obtain ⟨first, ordered⟩ := exists_prioritized found []
  have fit : Regex.fitTogether (l.entries.map (·.regex)) patternsLimit = true := by
    have le := foldl_footprintBound_le (List.forall₂_map_left_iff.2
      (List.forall₂_map_right_iff.2 bounds)) (Nat.le_refl 512)
    rw [Regex.fitTogether, Bool.or_eq_true, decide_eq_true_eq]
    exact .inl (le.trans small)
  refine ⟨⟨l, first ++ longestFirst (l.entries.filter fun e => !first.any (·.kind == e.kind))⟩,
    bind_eq_ok.2 ⟨l, built, bind_eq_ok.2 ⟨first, ordered, ?_⟩⟩, faithful⟩
  rw [fit]
  rfl

end Tokenizer

end RulesText
