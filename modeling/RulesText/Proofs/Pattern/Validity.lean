import RulesText.Proofs.Pattern.Faults
import RulesText.Proofs.Pattern.Groups
import RulesText.Proofs.Pattern.Independence
import RulesText.Proofs.Regex.Search

/-!
# When patterns are regular expressions

The pattern of plain phrases is a regular expression if its groups have different names, and so is
the pattern that matches a whole text. Then only a limit on depth or on size can be the reason
that a lexicon does not accept it.

## Main definitions

* `Lexicon.KeepsWithin`: an expression that is not too deep and not too large.
* `Lexicon.WithinLimits`: all expressions of an entry keep within their limits.
-/

namespace RulesText

open Regex (IsPlain IsFragment)
open Pattern (HasGroups groupNames)

/-- The members that a text captured by the field is compared with. -/
def Field.members (f : Field) : List Member :=
  match f.kind with
  | .choice family => family.members
  | _ => []

namespace Lexicon

variable {v : Vocabulary} {phrase : Phrase} {p : Pattern} {kind : Kind} {fault : Fault}
  {limit : Nat} {source : Text} {caseless : Bool}

/-- The expression that the text is read as, if it is one, is not too deep and not too large. -/
def KeepsWithin (limit : Nat) (source : Text) (caseless : Bool) : Prop :=
  ∀ r ∈ Regex.read? source caseless, r.2 ≤ Regex.Reader.maxDepth ∧ r.1.fits limit = true

instance : Decidable (KeepsWithin limit source caseless) :=
  inferInstanceAs (Decidable (∀ r ∈ Regex.read? source caseless, _))

/-- The expressions of an entry keep within their limits. -/
structure WithinLimits (phrase : Phrase) (p : Pattern) : Prop where
  search : KeepsWithin patternLimit p.source false
  exact : KeepsWithin patternLimit (Regex.anchored p.source) false
  members : ∀ f ∈ phrase.fields, ∀ m ∈ f.members,
    KeepsWithin memberLimit (memberSource f m) true

instance : Decidable (WithinLimits phrase p) :=
  decidable_of_iff (KeepsWithin patternLimit p.source false ∧
      KeepsWithin patternLimit (Regex.anchored p.source) false ∧
      ∀ f ∈ phrase.fields, ∀ m ∈ f.members, KeepsWithin memberLimit (memberSource f m) true)
    ⟨fun ⟨search, exact, members⟩ => ⟨search, exact, members⟩,
      fun h => ⟨h.search, h.exact, h.members⟩⟩

/-! ## Accepted patterns -/

theorem exists_parse (valid : (Regex.read? source caseless).isSome)
    (within : KeepsWithin limit source caseless) (kind : Kind) :
    ∃ r, parse kind limit source caseless = .ok r := by
  obtain ⟨⟨r, depth⟩, read⟩ := Option.isSome_iff_exists.1 valid
  obtain ⟨shallow, small⟩ := within _ read
  have parsed : Regex.parse? source caseless = some r := by
    rw [Regex.parse?_eq, read, Option.bind_some]
    exact if_pos shallow
  exact ⟨r, by rw [parse, parsed]; exact if_pos small⟩

theorem exists_memberPatterns {f : Field} (plain : ∀ text ∈ f.alternatives, IsPlain text)
    (within : ∀ m ∈ f.members, KeepsWithin memberLimit (memberSource f m) true) (kind : Kind) :
    ∃ members, memberPatterns kind f = .ok members := by
  unfold memberPatterns
  unfold Field.alternatives at plain
  unfold Field.members at within
  split
  · rename_i family choice
    rw [choice] at plain within
    refine exists_mapM_eq_ok fun m mem => ?_
    have own : IsPlain m.source := plain m.source (List.mem_map_of_mem mem)
    have fragment : IsFragment (memberSource f m) [] := by
      unfold memberSource
      split
      · exact (Alternation.piece_pluralize own).fragment.anchored
      · exact own.isFragment.anchored
    obtain ⟨r, parsed⟩ := exists_parse (fragment.read?_isSome .nil true) (within m mem) kind
    exact ⟨_, bind_eq_ok.2 ⟨r, parsed, rfl⟩⟩
  · exact ⟨[], rfl⟩

/-- A pattern of plain phrases with different groups is accepted within the limits. -/
theorem exists_buildEntry (groups : HasGroups p.source p.groups) (distinct : p.groups.Nodup)
    (plain : phrase.IsPlain) (within : WithinLimits phrase p) :
    ∃ e, buildEntry phrase p = .ok e := by
  obtain ⟨names, piece, same⟩ := groups
  have fragment := piece.fragment
  have distinct := same.nodup_iff.2 distinct
  obtain ⟨regex, parsed⟩ := exists_parse (fragment.read?_isSome distinct false) within.search
    phrase.kind
  obtain ⟨exact, parsed'⟩ := exists_parse (fragment.anchored.read?_isSome distinct false)
    within.exact phrase.kind
  have fields : ∃ fields, (p.fields.filterMap phrase.field?).mapM (buildField phrase.kind) =
      .ok fields := by
    refine exists_mapM_eq_ok fun f mem => ?_
    obtain ⟨name, -, found⟩ := List.mem_filterMap.1 mem
    have declared : f ∈ phrase.fields := List.mem_of_find?_eq_some found
    obtain ⟨members, built⟩ := exists_memberPatterns (plain.alternatives f declared)
      (within.members f declared) phrase.kind
    exact ⟨_, bind_eq_ok.2 ⟨members, built, rfl⟩⟩
  obtain ⟨fields, built⟩ := fields
  exact ⟨_, bind_eq_ok.2 ⟨regex, parsed, bind_eq_ok.2 ⟨exact, parsed',
    bind_eq_ok.2 ⟨fields, built, rfl⟩⟩⟩⟩

/-! ## Rejected patterns -/

theorem fault_of_parse (h : parse kind limit source caseless = .error fault) :
    fault = .invalidPattern kind := by
  unfold parse at h
  split at h
  · split at h
    · cases h
    · exact (Except.error.inj h).symm
  · exact (Except.error.inj h).symm

theorem fault_of_buildField {f : Field} (h : buildField kind f = .error fault) :
    fault = .invalidPattern kind := by
  rcases bind_eq_error.1 h with h | ⟨members, -, h⟩
  · unfold memberPatterns at h
    split at h
    · obtain ⟨m, -, h⟩ := exists_of_mapM_eq_error h
      rcases bind_eq_error.1 h with h | ⟨r, -, h⟩
      · exact fault_of_parse h
      · cases h
    · cases h
  · cases h

/-- An entry that cannot be built has an invalid pattern of its own kind. -/
theorem fault_of_buildEntry (h : buildEntry phrase p = .error fault) :
    fault = .invalidPattern phrase.kind := by
  rcases bind_eq_error.1 h with h | ⟨regex, -, h⟩
  · exact fault_of_parse h
  rcases bind_eq_error.1 h with h | ⟨exact, -, h⟩
  · exact fault_of_parse h
  rcases bind_eq_error.1 h with h | ⟨fields, -, h⟩
  · obtain ⟨f, -, h⟩ := exists_of_mapM_eq_error h
    exact fault_of_buildField h
  · cases h

/-- Where the pattern of a phrase is reported to be invalid, its entry cannot be built. -/
theorem buildEntry_of_invalidPattern (distinct : (v.map (·.kind)).Nodup)
    (h : build v = .error (.invalidPattern kind)) : ∃ phrase ∈ v, phrase.kind = kind ∧
      ∃ p, Compiler.outcome v [] kind = .ok p ∧
        buildEntry phrase p = .error (.invalidPattern kind) := by
  rw [build_eq_mapM distinct] at h
  rcases bind_eq_error.1 h with h | ⟨entries, -, h⟩
  · obtain ⟨phrase, mem, h⟩ := exists_of_mapM_eq_error h
    rcases bind_eq_error.1 h with h | ⟨p, rendered, h⟩
    · cases Compiler.isRendering_of_outcome h
    · obtain rfl := Fault.invalidPattern.inj (fault_of_buildEntry h)
      exact ⟨phrase, mem, rfl, p, rendered, h⟩
  · cases h

end Lexicon

namespace Compiler

variable {v : Vocabulary} {kind : Kind} {p : Pattern} {c : Compiler}

/-- Let all phrases that a pattern is rendered from be plain. Then the names behind the markers in
its text are the groups that it lists. If these are different, then the text is a regular
expression of some depth, also when it must match a whole text, and within the limits on depth
and size the pattern is not reported to be invalid. -/
theorem compile_plain (new : Compiler.new v = .ok c) (compiled : (c.compile kind).1 = .ok p)
    (plain : ∀ inner, Relation.ReflTransGen (Nests v) inner kind →
      ∀ phrase ∈ v, phrase.kind = inner → phrase.IsPlain) :
    (groupNames p.source).Perm p.groups ∧
      ((groupNames p.source).Nodup →
        (Regex.read? p.source false).isSome ∧
        (Regex.read? (Regex.anchored p.source) false).isSome ∧
        ∀ phrase ∈ v, phrase.kind = kind → Lexicon.WithinLimits phrase p →
          Lexicon.build v ≠ .error (.invalidPattern kind)) := by
  obtain ⟨distinct, rfl⟩ := eq_of_new new
  have renders : Renders v kind p := (compile_eq_ok (by simp) kind).1 compiled
  have groups : HasGroups p.source p.groups :=
    renders.hasGroups fun inner reaches phrase declared =>
      let ⟨mem, eq⟩ := (find?_kind_eq_some distinct).1 declared
      plain inner reaches phrase mem eq
  obtain ⟨names, piece, same⟩ := id groups
  rw [piece.marked.groupNames_eq]
  refine ⟨same, fun different => ⟨piece.fragment.read?_isSome different false,
    piece.fragment.anchored.read?_isSome different false, ?_⟩⟩
  rintro phrase mem rfl within invalid
  obtain ⟨other, mem', eq, q, outcome, failed⟩ :=
    Lexicon.buildEntry_of_invalidPattern distinct invalid
  obtain rfl : other = phrase := List.inj_on_of_nodup_map distinct mem' mem eq
  obtain rfl : q = p := by
    rw [compile_eq_outcome (by simp)] at compiled
    exact Except.ok.inj (outcome.symm.trans compiled)
  obtain ⟨e, built⟩ := Lexicon.exists_buildEntry groups (same.nodup_iff.1 different)
    (plain other.kind .refl other mem rfl) within
  cases failed.symm.trans built

/-- An optional nested phrase in front of a choice that can be plural. -/
def coloredTypes : Vocabulary := [
  { kind := .colorFilter
    template := "{color}"
    fields := [.words "color" ["red", "blue"]] },
  { kind := .objectRef
    template := "{filter} {type}."
    fields := [(Field.nested "filter" .colorFilter).optional,
      (Field.choice "type" ⟨"card_type", [⟨"Sorcery", none⟩, ⟨"Creature", none⟩]⟩).plural] }]

theorem compile_coloredTypes : ∃ c p, Compiler.new coloredTypes = .ok c ∧
    (c.compile .objectRef).1 = .ok p ∧ (∀ phrase ∈ coloredTypes, phrase.IsPlain) ∧
    (groupNames p.source).Perm p.groups ∧ (groupNames p.source).Nodup ∧
    (Regex.read? p.source false).isSome ∧ (Regex.read? (Regex.anchored p.source) false).isSome ∧
    Lexicon.build coloredTypes ≠ .error (.invalidPattern .objectRef) := by
  have plain : ∀ phrase ∈ coloredTypes, phrase.IsPlain := by decide +kernel
  have checked : ((Compiler.new coloredTypes).bind fun c => (c.compile .objectRef).1).toOption.any
      fun p => decide ((groupNames p.source).Nodup ∧
        ∀ phrase ∈ coloredTypes, phrase.kind = .objectRef → Lexicon.WithinLimits phrase p) := by
    decide +kernel
  obtain ⟨p, ok, checked⟩ := (Option.any_eq_true _ _).1 checked
  obtain ⟨different, within⟩ := of_decide_eq_true checked
  obtain ⟨c, new, compiled⟩ := bind_eq_ok.1 (Regex.Searcher.toOption_eq_some_iff.1 ok)
  obtain ⟨names, valid⟩ := compile_plain new compiled fun _ _ phrase mem _ => plain phrase mem
  obtain ⟨search, exact, accepted⟩ := valid different
  have last : coloredTypes[1] ∈ coloredTypes := List.getElem_mem _
  exact ⟨c, p, new, compiled, plain, names, different, search, exact,
    accepted _ last rfl (within _ last rfl)⟩

end Compiler

end RulesText
