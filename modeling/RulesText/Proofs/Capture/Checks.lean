import RulesText.Proofs.Capture.LoyaltyCost
import RulesText.Proofs.Capture.Nesting
import RulesText.Proofs.Regex.Alternatives

/-!
# Checking that a lexicon reads back what it matches

Whether the expressions of a lexicon see nothing outside their matches, and whether the members
of a choice match all that the choice captures, can be computed. Where the check succeeds, no text
makes reading back fail, and reading back agrees with the match that has produced a token.

## Main definitions

* `LexiconEntry.isFaithful`, `Lexicon.isFaithful`: the check of an entry and of a lexicon.

## Main statements

* `Lexicon.exists_readBack`: every match of a phrase is read back.
* `Lexicon.exists_readBack_tracks`: all nodes show what the groups of the match have captured.
-/

namespace RulesText

open Regex (parse? anchored)

/-- Whether the member's expression is the given one as a whole text, without regard to case. -/
def MemberPattern.readsAs (p : MemberPattern) (r : Regex) : Bool :=
  r.isPositive && r.caseless.isSealed && parse? p.source true == some r.caseless.whole

/-- Whether every way through what a choice captures is the expression of a member. -/
def LexiconField.isCovered (f : LexiconField) (body : Regex) : Bool :=
  match f.kind with
  | .choice _ => body.splitsInto (fun r => f.members.any (·.readsAs r)) []
  | _ => true

/-- Whether an entry is read back faithfully, but for what is nested in it. -/
def LexiconEntry.isFaithful (e : LexiconEntry) : Bool :=
  e.regex.isSealed && e.regex.capturesOnce && decide e.regex.names.Nodup &&
    parse? (anchored e.pattern.source) == some e.regex.whole &&
    e.fields.all fun f => e.regex.namedGroups.any fun (name, body) =>
      name == f.name && f.isCovered body

namespace Lexicon

/-- Whether the phrases that are nested in an entry have their own expressions in it. -/
def inlines (l : Lexicon) (e : LexiconEntry) : Bool :=
  e.fields.all fun f =>
    match f.kind with
    | .nested other => (l.find? other).any fun inner => inner.reading == .fields &&
        e.regex.namedGroups.contains (f.name, inner.regex.rename (Pattern.qualified f.name))
    | _ => true

/-- Whether every entry is read back faithfully. Conditions inside unbounded repetitions would
make the end of a match depend on when they are settled. Of what a hook answers with nothing is
known, but for loyalty costs. -/
def isFaithful (l : Lexicon) : Bool :=
  l.entries.all fun e => !e.regex.looksInLoop &&
    match e.reading with
    | .fields => e.isFaithful && l.inlines e
    | .loyaltyCost => e.regex == LoyaltyCost.expression
    | .hook _ => false

variable {v : Vocabulary} {l : Lexicon} {e : LexiconEntry} {f : LexiconField} {body : Regex}

/-- The expressions of the members, in their order, are read without regard to case. -/
theorem forall₂_memberPatterns {kind : Kind} {field : Field} {members : List MemberPattern}
    (h : memberPatterns kind field = .ok members) {family : Family}
    (choice : field.kind = .choice family) :
    List.Forall₂ (fun m p => p.source = memberSource field m ∧
      ∃ r, parse? p.source true = some r ∧ p.searcher = r.searcher) family.members members := by
  simp only [memberPatterns, choice] at h
  refine (mapM_eq_ok.1 h).imp fun m p same => ?_
  obtain ⟨r, parsed, same⟩ := bind_eq_ok.1 same
  obtain rfl := Except.ok.inj same
  exact ⟨rfl, r, parse_eq_ok parsed, rfl⟩

theorem of_memberPatterns {kind : Kind} {field : Field} {members : List MemberPattern}
    (h : memberPatterns kind field = .ok members) {family : Family}
    (choice : field.kind = .choice family) : members.length = family.members.length ∧
      ∀ p ∈ members, ∃ r, parse? p.source true = some r ∧ p.searcher = r.searcher := by
  have all := forall₂_memberPatterns h choice
  refine ⟨all.length_eq.symm, fun p mem => ?_⟩
  obtain ⟨m, -, -, read⟩ := exists_of_forall₂ all.flip mem
  exact read

theorem covers_of_isCovered {kind : Kind} {field : Field} (built : buildField kind field = .ok f)
    (covered : f.isCovered body) {family : Family} (choice : f.kind = .choice family) :
    f.Covers family body := by
  obtain ⟨-, same, members⟩ := of_buildField built
  obtain ⟨length, searchers⟩ := of_memberPatterns members (same ▸ choice)
  refine ⟨length, fun c d u through step => ?_⟩
  simp only [LexiconField.isCovered, choice] at covered
  obtain ⟨r, wanted, step⟩ := Regex.exists_of_splitsInto covered rfl step
  obtain ⟨p, mem, reads⟩ := List.any_eq_true.1 wanted
  simp only [MemberPattern.readsAs, Bool.and_eq_true, beq_iff_eq] at reads
  obtain ⟨⟨positive, isSealed⟩, parsed⟩ := reads
  obtain ⟨r', parsed', searcher⟩ := searchers p mem
  obtain rfl := Option.some.inj (parsed.symm.trans parsed')
  refine ⟨p, mem, ?_⟩
  rw [searcher]
  exact Regex.occursIn_whole isSealed through (Regex.matches_caseless positive step)

theorem isFaithful_of_check {phrase : Phrase} (describes : e.Describes v phrase)
    (reading : e.reading = .fields) (check : e.isFaithful) : e.IsFaithful := by
  simp only [LexiconEntry.isFaithful, Bool.and_eq_true, decide_eq_true_eq, beq_iff_eq,
    List.all_eq_true, List.any_eq_true] at check
  obtain ⟨⟨⟨⟨isSealed, once⟩, names⟩, parsed⟩, groups⟩ := check
  obtain ⟨r, parsed', searcher⟩ := describes.exact
  obtain rfl := Option.some.inj (parsed.symm.trans (parse_eq_ok parsed'))
  obtain ⟨_, placed, -⟩ := describes.fields
  refine ⟨reading, describes.map_name ▸ placed.distinct, searcher, isSealed, once, names,
    fun f mem => ?_⟩
  obtain ⟨⟨name, body⟩, group, rfl, covered⟩ := groups f mem
  obtain ⟨field, -, built⟩ := describes.field?_eq mem
  exact ⟨body, group, fun family choice => covers_of_isCovered built covered choice⟩

theorem inlines_of_check (check : l.inlines e) : l.Inlines e := by
  intro f mem other nested
  have field := List.all_eq_true.1 check f mem
  simp only [nested] at field
  obtain ⟨inner, found, same⟩ := (Option.any_eq_true _ _).1 field
  simp only [Bool.and_eq_true, List.contains_iff_mem] at same
  exact ⟨inner, found, Reading.eq_fields_of_beq same.1, same.2⟩

section

variable (built : build v = .ok l) (check : l.isFaithful)

include built check

theorem faithful_of_check (mem : e ∈ l.entries) (reading : e.reading = .fields) :
    Faithful l.entries e.kind e := by
  refine faithful_of_build built (fun e mem reading => ?_) mem reading
  obtain ⟨phrase, describes⟩ := exists_describes built mem
  have entry := List.all_eq_true.1 check e mem
  simp only [reading, Bool.and_eq_true] at entry
  exact ⟨isFaithful_of_check describes reading entry.2.1, inlines_of_check entry.2.2⟩

variable {line : Text} {c d : Cursor} (place : c.IsPlace line)

include place

/-- Every node of the tree of a match shows what the groups of this match have captured. -/
theorem exists_readBack_tracks (mem : e ∈ l.entries) (reading : e.reading = .fields)
    (found : e.search.stopAt? c = some d) :
    ∃ m tree, e.search.eager.matchAt? c = some m ∧ m.stop = d ∧
      l.readBack e.kind line (c.spanTo d) = .ok tree ∧
      ∀ path node, tree.descend? path = some node → ∃ inner, l.find? node.kind = some inner ∧
        node.Tracks inner.fields fun name => m.group? (Pattern.groupAt path name) := by
  obtain ⟨phrase, describes⟩ := exists_describes built mem
  have faithful := faithful_of_check built check mem reading
  have entry := List.all_eq_true.1 check e mem
  simp only [reading, Bool.and_eq_true, Bool.not_eq_true'] at entry
  rw [describes.search, Regex.stopAt?_finder entry.1] at found
  obtain ⟨m, matched, rfl⟩ := Option.map_eq_some_iff.1 found
  have best : e.regex.Best { stop := c } m := by
    refine Regex.best_of_head? ?_
    rw [← Regex.matchAt?_eq_head? (Regex.isSteady_of_isSealed faithful.isFaithful.isSealed) place]
    exact matched
  obtain ⟨tree, read, tracks⟩ := exists_readWithin faithful place best
  refine ⟨m, tree, describes.search ▸ matched, rfl, read, fun path node descends => ?_⟩
  obtain ⟨inner, found, -, tracks⟩ := tracks path node descends
  exact ⟨inner, found, tracks⟩

/-- Reading back a match of a phrase never fails. -/
theorem exists_readBack (mem : e ∈ l.entries) (found : e.search.stopAt? c = some d) :
    ∃ tree, l.readBack e.kind line (c.spanTo d) = .ok tree := by
  cases reading : e.reading with
  | fields =>
    obtain ⟨-, tree, -, -, read, -⟩ := exists_readBack_tracks built check place mem reading found
    exact ⟨tree, read⟩
  | loyaltyCost =>
    obtain ⟨phrase, describes⟩ := exists_describes built mem
    have entry := List.all_eq_true.1 check e mem
    simp only [reading, Bool.and_eq_true, beq_iff_eq] at entry
    rw [describes.search] at found
    have step := Regex.matches_of_stopAt? found
    obtain ⟨u, through⟩ := Regex.matches_forward _ _ _ step
    obtain ⟨cost, read⟩ :=
      Option.isSome_iff_exists.1 (LoyaltyCost.isSome_ofText? through (entry.2 ▸ step))
    refine ⟨cost.capture e.kind (c.spanTo d), ?_⟩
    refine readWithin_eq_ok.2
      ⟨e, find?_of_build built mem, .inl ⟨LoyaltyCost.readBack, by rw [reading]; rfl, ?_⟩⟩
    rw [LoyaltyCost.readBack, Text.slice_eq (place.slice?_spanTo through), read]
  | hook read =>
    have entry := List.all_eq_true.1 check e mem
    simp [reading] at entry

end

end Lexicon

end RulesText
