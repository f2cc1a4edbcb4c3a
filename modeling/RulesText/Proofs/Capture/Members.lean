import RulesText.Proofs.Capture.Checks
import RulesText.Proofs.Pattern.Choices
import RulesText.Proofs.Regex.GroupBodies

/-!
# Choices are members

A choice is captured by an alternation of all patterns of its family, and read back by trying the
patterns of its members one by one. If the patterns are monotone and the group of the choice is
read as a group, then what is captured always is a member. The member that is told is the first
one that fits. A hook tells choices of its own, or none as the hook for loyalty costs does.

## Main definitions

* `Member.Fits`: a member and a text that it matches as a whole.
* `Lexicon.KeepsChoices`: every choice is a group of monotone patterns.
* `Capture.HoldsFirst`: a node and the members that its fields hold.
* `Hook.ChoosesFirst`: a hook and the members that its trees hold.

## Main statements

* `Lexicon.readBack_choices`: what is captured is a member, and the first one is told.
-/

namespace RulesText

open Regex (Cuts IsMonotone parse? anchored)

/-- The pattern of the member matches the text as a whole, without regard to case. -/
def Member.Fits (m : Member) (f : Field) (u : Text) : Prop :=
  ∃ r, parse? (Lexicon.memberSource f m) true = some r ∧ r.searcher.occursIn u

/-- The member stands at the given place of its family. It fits the text, and none before it
does. -/
structure Family.FirstFit (family : Family) (f : Field) (u : Text) (index : Nat) (m : Member) :
    Prop where
  place : family.members[index]? = some m
  fits : m.Fits f u
  first : ∀ i < index, ∀ other, family.members[i]? = some other → ¬other.Fits f u

/-- The group of the field in the text of a pattern, where it is read as a group: what is before
it are whole lexemes. -/
def Field.StandsIn (f : Field) (source : Text) : Prop :=
  ∃ front back lexemes,
    source = front ++ (RenderedField.ofAlternatives f f.alternatives).group ++ back ∧
      Cuts front lexemes

/-- The field chooses from a family of monotone patterns by a group of its own. -/
structure Field.Chooses (f : Field) (family : Family) (source : Text) : Prop where
  nonempty : family.members ≠ []
  monotone : ∀ m ∈ family.members, IsMonotone m.source
  stands : f.StandsIn source

/-- All choices of the phrase are made by groups of monotone patterns. -/
def LexiconEntry.KeepsChoices (v : Vocabulary) (e : LexiconEntry) : Prop :=
  ∀ phrase, v.find? (·.kind == e.kind) = some phrase → ∀ f ∈ phrase.fields, ∀ family,
    f.kind = .choice family → f.Chooses family e.pattern.source

def Lexicon.KeepsChoices (v : Vocabulary) (l : Lexicon) : Prop :=
  ∀ e ∈ l.entries, e.KeepsChoices v

/-- Whether the field stands in the pattern where the text of its group first occurs. -/
def Field.standsIn (f : Field) (source : Text) : Bool :=
  (Text.cut? (RenderedField.ofAlternatives f f.alternatives).group source).any fun (front, _) =>
    (Regex.lexemes? front).any (·.all fun l => decide l.KeepsFlags)

/-- Whether all choices of the phrase are made by groups of monotone patterns. -/
def LexiconEntry.keepsChoices (v : Vocabulary) (e : LexiconEntry) : Bool :=
  (v.find? (·.kind == e.kind)).all fun phrase => phrase.fields.all fun f =>
    match f.kind with
    | .choice family => !family.members.isEmpty &&
        family.members.all (fun m => decide (IsMonotone m.source)) && f.standsIn e.pattern.source
    | _ => true

theorem Field.standsIn_of_check {f : Field} {source : Text} (check : f.standsIn source) :
    f.StandsIn source := by
  obtain ⟨⟨front, back⟩, cut, check⟩ := (Option.any_eq_true _ _).1 check
  obtain ⟨lexemes, lexed, keeps⟩ := (Option.any_eq_true _ _).1 check
  refine ⟨front, back, lexemes, Text.eq_of_cut? cut, ?_⟩
  refine Regex.cuts_of_lexemesFrom? (List.forall_mem_nil _) lexed fun l mem => ?_
  exact of_decide_eq_true (List.all_eq_true.1 keeps l mem)

theorem LexiconEntry.keepsChoices_of_check {v : Vocabulary} {e : LexiconEntry}
    (check : e.keepsChoices v) : e.KeepsChoices v := by
  intro phrase declared f mem family choice
  rw [keepsChoices, declared, Option.all_some, List.all_eq_true] at check
  have own := check f mem
  simp only [choice, Bool.and_eq_true, Bool.not_eq_true', List.isEmpty_eq_false_iff,
    List.all_eq_true, decide_eq_true_eq] at own
  obtain ⟨⟨nonempty, monotone⟩, stands⟩ := own
  exact ⟨nonempty, monotone, Field.standsIn_of_check stands⟩

/-- Where a field of the node holds a choice, the choice is the first member of the family that
fits what the field has captured. -/
def Capture.HoldsFirst (v : Vocabulary) (line : Text) (t : Capture) : Prop :=
  ∀ g ∈ t.fields, ∀ name member index, g.value = .choice name member index →
    ∃ phrase f family m s, v.find? (·.kind == t.kind) = some phrase ∧
      phrase.field? g.name = some f ∧ f.kind = .choice family ∧ g.span? = some s ∧
      family.FirstFit f (Text.slice line s) index m ∧ name = family.name ∧ member = m.name

/-- The result is not the fault that some text is no member. -/
def FindsMembers {α : Type} (x : Except Fault α) : Prop :=
  ∀ field family text, x ≠ .error (.noMatchingMember field family text)

namespace FindsMembers

variable {α β : Type} {x : Except Fault α} {f : α → Except Fault β}

theorem ok (a : α) : FindsMembers (.ok a) :=
  nofun

theorem undeclaredKind (kind : Kind) : @FindsMembers α (.error (.undeclaredKind kind)) :=
  nofun

theorem tokenMismatch (kind : Kind) (text : Text) :
    @FindsMembers α (.error (.tokenMismatch kind text)) :=
  nofun

theorem bind (h : FindsMembers x) (h' : ∀ a, x = .ok a → FindsMembers (f a)) :
    FindsMembers (x >>= f) := by
  intro field family text failed
  rcases bind_eq_error.1 failed with first | ⟨a, done, failed⟩
  · exact h field family text first
  · exact h' a done field family text failed

end FindsMembers

/-- The hook never fails because a text is no member, and the members that it tells are the first
ones that fit. -/
structure Hook.ChoosesFirst (v : Vocabulary) (kind : Kind) (hook : Hook) : Prop where
  finds : ∀ line span, FindsMembers (hook kind line span)
  first : ∀ line span tree, hook kind line span = .ok tree →
    ∀ node ∈ tree.walk, node.HoldsFirst v line

/-- A loyalty cost has no choices. -/
theorem LoyaltyCost.choosesFirst_readBack (v : Vocabulary) (kind : Kind) :
    Hook.ChoosesFirst v kind readBack where
  finds line span := by
    rw [readBack]
    split
    · exact .ok _
    · exact .tokenMismatch _ _
  first line span tree read := by
    obtain ⟨cost, -, rfl⟩ := readBack_eq_ok read
    rw [walk_capture]
    refine List.forall_mem_singleton.2 fun g mem name member index choice => ?_
    rcases List.mem_cons.1 mem with rfl | mem
    · cases choice
    · obtain rfl := List.mem_singleton.1 mem
      cases choice

namespace Lexicon

variable {v : Vocabulary} {l : Lexicon} {entries : List LexiconEntry} {e : LexiconEntry}
  {phrase : Phrase} {f : Field} {g : LexiconField} {family : Family} {kind : Kind} {span : Span}
  {line text u : Text} {m : Match} {s : Span}

/-! ## Members -/

/-- The expressions of the members tell which of them fit. -/
theorem forall₂_fits (built : buildField kind f = .ok g) (choice : f.kind = .choice family)
    (u : Text) : List.Forall₂ (fun m p => p.searcher.occursIn u ↔ m.Fits f u)
      family.members g.members := by
  obtain ⟨-, -, members⟩ := of_buildField built
  refine (forall₂_memberPatterns members choice).imp fun m p same => ?_
  obtain ⟨source, r, parsed, searcher⟩ := same
  rw [source] at parsed
  rw [searcher]
  refine ⟨fun occurs => ⟨r, parsed, occurs⟩, fun fits => ?_⟩
  obtain ⟨r', parsed', occurs⟩ := fits
  obtain rfl := Option.some.inj (parsed.symm.trans parsed')
  exact occurs

/-- The member whose expression is found first is the first one that fits. -/
theorem firstFit_of_findIdx (built : buildField kind f = .ok g) (choice : f.kind = .choice family)
    {member : Member}
    (found : family.members[g.members.findIdx (·.searcher.occursIn u)]? = some member) :
    family.FirstFit f u (g.members.findIdx (·.searcher.occursIn u)) member := by
  obtain ⟨length, fits⟩ := List.forall₂_iff_get.1 (forall₂_fits built choice u)
  obtain ⟨lt, rfl⟩ := List.getElem?_eq_some_iff.1 found
  have occurs := List.findIdx_getElem (w := length ▸ lt)
  refine ⟨found, (fits _ lt (length ▸ lt)).1 occurs, fun i before other at_place => ?_⟩
  obtain ⟨lt', rfl⟩ := List.getElem?_eq_some_iff.1 at_place
  intro fit
  have occurs := (fits i lt' (length ▸ lt')).2 fit
  exact absurd occurs (by simpa using List.not_of_lt_findIdx before)

/-- If a member fits, then one is found. -/
theorem exists_getElem?_findIdx (built : buildField kind f = .ok g)
    (choice : f.kind = .choice family) (some_fits : ∃ m ∈ family.members, m.Fits f u) :
    ∃ m, family.members[g.members.findIdx (·.searcher.occursIn u)]? = some m := by
  have fits := forall₂_fits built choice u
  obtain ⟨m, mem, fit⟩ := some_fits
  obtain ⟨p, known, same⟩ := exists_of_forall₂ fits mem
  have lt : g.members.findIdx (·.searcher.occursIn u) < g.members.length :=
    List.findIdx_lt_length_of_exists ⟨p, known, same.2 fit⟩
  exact ⟨_, List.getElem?_eq_getElem (fits.length_eq ▸ lt)⟩

/-! ## Captured texts -/

/-- All groups of the field in a whole pattern have the expression of its alternation. -/
theorem snd_eq_of_standsIn {source : Text} (stands : f.StandsIn source)
    (isName : Template.IsName f.name) {r : Regex} (parsed : parse? (anchored source) = some r)
    {bs : List Regex} (branches : Regex.HasBranches false
      (Alternation.source f.alternatives f.isPlural f.isBounded) bs)
    {body : Regex} (mem : (f.name, body) ∈ r.groups) : body = Regex.oneOf bs := by
  obtain ⟨front, back, lexemes, text, cuts⟩ := stands
  have opening : Cuts ("^(?:" ++ front) (.caret :: .openGroup [] :: lexemes) :=
    .cons rfl trivial (.cons rfl rfl cuts)
  have whole : anchored source = ("^(?:" ++ front) ++ ("(?P<" ++ f.name ++ ['>'] ++
      Alternation.source f.alternatives f.isPlural f.isBounded ++ ")") ++ (back ++ ")$") := by
    simp [anchored, text, RenderedField.ofAlternatives, RenderedField.wrap, Pattern.groupMarker]
  rw [whole] at parsed
  exact Regex.snd_eq_of_mem_groups parsed opening isName.readGroupName? branches mem rfl

theorem exists_covered (choice : f.kind = .choice family) {source : Text}
    (chooses : f.Chooses family source) : ∃ bs,
      Regex.HasBranches false (Alternation.source f.alternatives f.isPlural f.isBounded) bs ∧
      Alternation.Covered f.isPlural family.sources (Regex.oneOf bs) := by
  have alternatives : f.alternatives = family.sources := by rw [Field.alternatives, choice]
  have some_source : family.sources ≠ [] := by simpa [Family.sources] using chooses.nonempty
  have monotone : ∀ t ∈ family.sources, IsMonotone t := by
    intro t inside
    obtain ⟨member, belongs, rfl⟩ := List.mem_map.1 inside
    exact chooses.monotone member belongs
  rw [alternatives]
  exact Alternation.exists_covered some_source monotone f.isPlural f.isBounded

/-- What the group of a choice captures is matched by the alternation of its family, and so by one
of the members. -/
theorem exists_fits (describes : e.Describes v phrase) (mem : f ∈ phrase.fields)
    (choice : f.kind = .choice family) (chooses : f.Chooses family e.pattern.source)
    (found : e.exact.find? text = some m) (captured : m.group? f.name = some s) :
    ∃ member ∈ family.members, member.Fits f (Text.slice text s) := by
  obtain ⟨r, parsed, exact⟩ := describes.exact
  rw [exact] at found
  obtain ⟨body, a, b, known, through, step⟩ := Regex.Searcher.exists_matched found captured
  obtain ⟨_, placed, -⟩ := describes.fields
  have isName : Template.IsName f.name :=
    Template.isName_of_mem_placeholders (placed.mem_placeholders mem)
  obtain ⟨bs, branches, covered⟩ := exists_covered choice chooses
  have body_eq : body = Regex.oneOf bs :=
    snd_eq_of_standsIn chooses.stands isName (parse_eq_ok parsed) branches known
  obtain ⟨t, inside, occurs⟩ := covered through (body_eq ▸ step)
  -- a pattern that matches is the pattern of a member, and the member has an expression of it
  obtain ⟨member, belongs, rfl⟩ := List.mem_map.1 inside
  obtain ⟨g, -, built⟩ := describes.exists_field mem
  obtain ⟨-, -, members⟩ := of_buildField built
  obtain ⟨p, -, own, r', parsed', -⟩ :=
    exists_of_forall₂ (forall₂_memberPatterns members choice) belongs
  rw [own] at parsed'
  exact ⟨member, belongs, r', parsed', occurs r' parsed'⟩

/-! ## Faults -/

theorem findsMembers_readField {nested : Kind → Span → Except Fault Capture} {start : Nat}
    {found? : Option Span} (trees : ∀ other s, FindsMembers (nested other s))
    (choice : ∀ family s, g.kind = .choice family → found? = some s →
      ∃ m, family.members[g.members.findIdx (·.searcher.occursIn (Text.slice text s))]? = some m) :
    FindsMembers (readField nested text start g found?) := by
  rw [readField.eq_def]
  split
  · exact .ok _
  · exact .ok _
  · rename_i family s kind
    obtain ⟨m, member⟩ := choice family s kind rfl
    dsimp only
    rw [member]
    exact .ok _
  · exact .ok _
  · exact .bind (trees _ _) fun _ _ => .ok _

theorem findsMembers_readFields {nested : Kind → Span → Except Fault Capture} {start : Nat}
    {fields : List LexiconField}
    (all : ∀ g ∈ fields, FindsMembers (readField nested text start g (m.group? g.name))) :
    FindsMembers (readFields nested text start m fields) := by
  induction fields with
  | nil => exact .ok _
  | cons g fields ih =>
    obtain ⟨first, rest⟩ := List.forall_mem_cons.1 all
    exact first.bind fun _ _ => (ih rest).bind fun _ _ => .ok _

/-- Reading back never fails because a captured text is no member. -/
theorem findsMembers_readWithin (described : ∀ e ∈ entries, ∃ phrase, e.Describes v phrase)
    (keeps : ∀ e ∈ entries, e.KeepsChoices v) (hooks : v.HooksKeep (Hook.ChoosesFirst v)) :
    FindsMembers (readWithin entries line kind span) := by
  induction size : entries.length using Nat.strongRecOn generalizing entries kind span with
  | _ size' ih =>
    rw [readWithin]
    split
    · exact .undeclaredKind _
    · rename_i e found
      have mem := List.mem_of_find?_eq_some found
      obtain ⟨rfl, ⟨phrase, describes⟩, less, rest⟩ := describes_of_find? described found
      split
      · rename_i hook reads
        exact (describes.keeps hooks reads).finds line span
      · dsimp only
        split
        · exact .tokenMismatch _ _
        · rename_i m exact
          refine .bind (findsMembers_readFields fun g inside => ?_) fun _ _ => .ok _
          refine findsMembers_readField (fun other s => ?_) fun family s choice captured => ?_
          · exact ih _ (size ▸ less) rest (fun e mem => keeps e (List.mem_filter.1 mem).1) rfl
          · obtain ⟨f, declared, built⟩ := describes.field?_eq inside
            obtain ⟨name, same, -⟩ := of_buildField built
            have known := List.mem_of_find?_eq_some declared
            have choice := same ▸ choice
            refine exists_getElem?_findIdx built choice ?_
            rw [name] at captured
            exact exists_fits describes known choice
              (keeps e mem phrase describes.declared f known family choice) exact captured

/-! ## Nodes -/

variable {nested : Kind → Span → Except Fault Capture} {readings : List FieldReading}
  {tree : Capture}

theorem holdsFirst_assembleTree (describes : e.Describes v phrase)
    (found : e.exact.find? (Text.slice line span) = some m)
    (all : Readings nested (Text.slice line span) span.start m e.fields readings) :
    (assembleTree e.kind span readings).HoldsFirst v line := by
  intro field mem name member index value
  obtain ⟨place, r, at_place, rfl⟩ := mem_fields_assembleTree.1 mem
  obtain ⟨g, inside, reads⟩ := all.read r (List.mem_of_getElem? at_place)
  obtain ⟨f, declared, built⟩ := describes.field?_eq inside
  obtain ⟨family, m', s, choice, captured, rfl, isMember, rfl, rfl⟩ :=
    reads.of_choice (value_of_fieldOf nofun value)
  obtain ⟨u, slice⟩ := exists_slice_of_group describes found captured
  have choice := (of_buildField built).2.1 ▸ choice
  refine ⟨phrase, f, family, m', s.shift span.start, describes.declared, ?_, choice, ?_, ?_, rfl,
    rfl⟩
  · rw [name_fieldOf, reads.name]
    exact declared
  · rw [span?_fieldOf, reads.span?, captured, Option.map_some]
  · rw [Text.slice_shift slice]
    rw [Text.slice_eq slice] at isMember ⊢
    exact firstFit_of_findIdx built choice isMember

/-- All choices in a tree are the first members that fit. -/
theorem readWithin_holdsFirst (described : ∀ e ∈ entries, ∃ phrase, e.Describes v phrase)
    (hooks : v.HooksKeep (Hook.ChoosesFirst v)) (h : readWithin entries line kind span = .ok tree) :
    ∀ node ∈ tree.walk, node.HoldsFirst v line := by
  induction size : entries.length using Nat.strongRecOn generalizing entries kind span tree with
  | _ size' ih =>
    obtain ⟨e, found, read⟩ := readWithin_eq_ok.1 h
    obtain ⟨rfl, ⟨phrase, describes⟩, less, rest⟩ := describes_of_find? described found
    rcases read with ⟨hook, reads, read⟩ | ⟨-, m, readings, exact, fields, rfl⟩
    · exact (describes.keeps hooks reads).first line span tree read
    · intro node mem
      have all := readings_of_readFields fields
      rcases Capture.mem_walk.1 mem with rfl | ⟨c, child, mem⟩
      · exact holdsFirst_assembleTree describes exact all
      · obtain ⟨-, -, other, s, -, read⟩ := exists_nested_of_child all child
        exact ih _ (size ▸ less) rest read rfl node mem

/-- What the group of a choice captures always fits a member of its family, so reading back never
fails because it does not. The member that is told is the first one that fits, in all nodes. What
hooks tell is left to them. -/
theorem readBack_choices (built : build v = .ok l) (keeps : l.KeepsChoices v) :
    (∀ e ∈ l.entries, ∀ phrase, v.find? (·.kind == e.kind) = some phrase →
      ∀ f ∈ phrase.fields, ∀ family, f.kind = .choice family →
        ∀ text m s, e.exact.find? text = some m → m.group? f.name = some s →
          ∃ member ∈ family.members, member.Fits f (Text.slice text s)) ∧
    (v.HooksKeep (Hook.ChoosesFirst v) →
      ∀ kind line span, FindsMembers (l.readBack kind line span) ∧
        ∀ tree, l.readBack kind line span = .ok tree →
          ∀ node ∈ tree.walk, node.HoldsFirst v line) := by
  have described : ∀ e ∈ l.entries, ∃ phrase, e.Describes v phrase :=
    fun e mem => exists_describes built mem
  refine ⟨fun e mem phrase declared f field family choice text m s found captured => ?_,
    fun hooks kind line span => ⟨findsMembers_readWithin described keeps hooks,
      fun tree read => readWithin_holdsFirst described hooks read⟩⟩
  obtain ⟨other, describes⟩ := described e mem
  obtain rfl := Option.some.inj (describes.declared.symm.trans declared)
  exact exists_fits describes field choice (keeps e mem other declared f field family choice)
    found captured

/-- A choice in the plural that can be left out, and one between word boundaries in a nested
phrase, where one member fits all that the other one does. -/
def alliedColors : Vocabulary := [
  { kind := .colorFilter
    template := "{color}"
    fields := [.bounded (.choice "color"
      { name := "Color", members := [⟨"Red", none⟩, ⟨"Any", some "[a-z]+"⟩] })] },
  { kind := .objectRef
    template := "{type} or {filter}"
    fields := [
      .optional (.plural (.choice "type"
        { name := "Type", members := [⟨"Card", none⟩, ⟨"Ally", none⟩] })),
      .nested "filter" .colorFilter] }]

theorem choices_alliedColors : ∃ l tree, build alliedColors = .ok l ∧
    l.KeepsChoices alliedColors ∧ alliedColors.HooksKeep (Hook.ChoosesFirst alliedColors) ∧
    l.readBack .objectRef "allies or red" ⟨0, 13⟩ = .ok tree ∧
    tree.walk.map (·.fields.map (·.value)) =
      [[.choice "Type" "Ally" 1, .child 0], [.choice "Color" "Red" 0]] ∧
    (∀ node ∈ tree.walk, node.HoldsFirst alliedColors "allies or red") ∧
    ∀ kind line span, FindsMembers (l.readBack kind line span) := by
  have checked : (build alliedColors).toOption.any fun l =>
      l.entries.all (·.keepsChoices alliedColors) &&
        (l.readBack .objectRef "allies or red" ⟨0, 13⟩).toOption.any fun tree =>
          tree.walk.map (·.fields.map (·.value)) ==
            [[.choice "Type" "Ally" 1, .child 0], [.choice "Color" "Red" 0]] := by
    decide +kernel
  obtain ⟨l, built, check⟩ := (Option.any_eq_true _ _).1 checked
  rw [Bool.and_eq_true, List.all_eq_true] at check
  obtain ⟨tree, read, values⟩ := (Option.any_eq_true _ _).1 check.2
  have built := Regex.Searcher.toOption_eq_some_iff.1 built
  have read := Regex.Searcher.toOption_eq_some_iff.1 read
  have keeps : l.KeepsChoices alliedColors :=
    fun e mem => LexiconEntry.keepsChoices_of_check (check.1 e mem)
  have hooks : alliedColors.HooksKeep (Hook.ChoosesFirst alliedColors) :=
    .of_loyaltyCost (by simp [alliedColors]) (LoyaltyCost.choosesFirst_readBack _)
  obtain ⟨-, all⟩ := readBack_choices built keeps
  exact ⟨l, tree, built, keeps, hooks, read, beq_iff_eq.1 values, (all hooks _ _ _).2 tree read,
    fun kind line span => (all hooks kind line span).1⟩

/-- A phrase that is one choice. -/
def oneColor (template : Text) (members : List Member) : Vocabulary := [
  { kind := .colorFilter
    template
    fields := [.choice "color" { name := "Color", members }] }]

theorem exists_fault {fault : Fault} (failed : (build v).toOption.map (fun l =>
    (l.readBack kind line span).map fun _ => ()) = some (.error fault)) :
    ∃ l, build v = .ok l ∧ l.readBack kind line span = .error fault := by
  obtain ⟨l, built, read⟩ := Option.map_eq_some_iff.1 failed
  refine ⟨l, Regex.Searcher.toOption_eq_some_iff.1 built, ?_⟩
  cases result : l.readBack kind line span with
  | ok tree =>
    rw [result] at read
    cases read
  | error other =>
    rw [result] at read
    exact congrArg Except.error (Except.error.inj read)

/-- None of the conditions can be left out. A family without members captures the empty text.
The class of all letters a that are no letter A has the member a, but has none without regard to
case. And where a literal opens a class in front of the placeholder, the text of the group belongs
to the class. -/
theorem noMatchingMember_oneColor :
    (∃ l, build (oneColor "{color}" []) = .ok l ∧
      l.readBack .colorFilter [] ⟨0, 0⟩ = .error (.noMatchingMember "color" "Color" [])) ∧
    ((parse? "[a--A]").isSome ∧
      ∃ l, build (oneColor "{color}" [⟨"Letter", some "[a--A]"⟩]) = .ok l ∧
      l.readBack .colorFilter "a" ⟨0, 1⟩ = .error (.noMatchingMember "color" "Color" "a")) ∧
    ∃ l, build (oneColor "(?P<color>blue)[{color}]" [⟨"Red", none⟩]) = .ok l ∧
      l.readBack .colorFilter "bluer" ⟨0, 5⟩ =
        .error (.noMatchingMember "color" "Color" "blue") :=
  ⟨exists_fault (by decide +kernel), ⟨by decide +kernel, exists_fault (by decide +kernel)⟩,
    exists_fault (by decide +kernel)⟩

end Lexicon

end RulesText
