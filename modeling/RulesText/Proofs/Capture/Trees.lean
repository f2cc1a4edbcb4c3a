import RulesText.Proofs.Capture.Assembly
import RulesText.Proofs.Regex.GroupSpans

/-!
# Trees that are read back

Every tree that a token reads back as fits together, at all of its nodes: spans lie inside the
span of their node, children are sorted, and each of them is held by one field, which the phrase
declares as nested. A node that is read by its template has its fields in template order, all of
its flags, and texts that are slices of the line.

A hook is code that this library only calls: the tree that it answers with becomes a tree or a
child as it is. So it is up to the hook to make trees that are capture trees of their tokens, as
the hook for loyalty costs does, and all that is made of them is shown here.

## Main definitions

* `Capture.HoldsChildren`: a node holds its children by its fields.
* `Capture.FitsTogether`: what holds at every node of a tree.
* `Capture.ReadsTemplate`: what holds at a node that is read by its template.
* `Capture.IsTemplateNode`: the nodes of a tree that are read by their templates.
* `Hook.MakesTrees`: the hook answers with capture trees of its tokens.

## Main statements

* `Lexicon.readBack_fitsTogether`: all that is read back fits together, if hooks make trees.
* `Lexicon.hooksKeep_makesTrees_iff`: if one does not, then not all that is read back does.
-/

namespace RulesText

namespace Capture

/-! ## Nodes -/

theorem mem_walkAll {node : Capture} {trees : List Capture} :
    node ∈ walkAll trees ↔ ∃ t ∈ trees, node ∈ t.walk := by
  induction trees with
  | nil => simp [walkAll]
  | cons t trees ih => simp [walkAll, ih]

theorem mem_walk {node t : Capture} :
    node ∈ t.walk ↔ node = t ∨ ∃ c ∈ t.children, node ∈ c.walk := by
  cases t
  rw [walk, List.mem_cons, mem_walkAll]

/-- The fields of a node lie inside of it and hold its children, which are sorted. -/
structure HoldsChildren (v : Vocabulary) (t : Capture) : Prop where
  fields_inside : ∀ f ∈ t.fields, ∀ s, f.span? = some s → s.start ≤ s.stop ∧ t.span.contains s
  sorted : t.children.Pairwise fun a b => (a.span.compare b.span).isLE
  /-- The fields hold the index of each child once, and no others. -/
  held : (t.fields.filterMap (·.childIndex?)).Perm (List.range t.children.length)
  /-- What a field holds has the field's span, and the kind that is declared for the field. -/
  child : ∀ f ∈ t.fields, ∀ i, f.childIndex? = some i →
    ∃ c phrase field, t.children[i]? = some c ∧ f.span? = some c.span ∧
      v.find? (·.kind == t.kind) = some phrase ∧ phrase.field? f.name = some field ∧
      field.kind = .nested c.kind

/-- A node fits together with its fields and its children. -/
structure FitsTogether (v : Vocabulary) (t : Capture) : Prop extends HoldsChildren v t where
  children_inside : ∀ c ∈ t.children, t.span.contains c.span

/-- A child lies where the field does that holds it. -/
theorem HoldsChildren.fitsTogether {v : Vocabulary} {t : Capture} (h : t.HoldsChildren v) :
    t.FitsTogether v := by
  refine ⟨h, fun c mem => ?_⟩
  obtain ⟨i, at_place⟩ := List.getElem?_of_mem mem
  have less : i ∈ List.range t.children.length :=
    List.mem_range.2 (List.getElem?_eq_some_iff.1 at_place).1
  obtain ⟨f, field, holds⟩ := List.mem_filterMap.1 (h.held.mem_iff.2 less)
  obtain ⟨c', phrase, g, at_place', same, -⟩ := h.child f field i holds
  obtain rfl := Option.some.inj (at_place.symm.trans at_place')
  exact (h.fields_inside f field c.span same).2

/-- A node has been read from a line by the template of its phrase. -/
structure ReadsTemplate (line : Text) (phrase : Phrase) (t : Capture) : Prop where
  distinct : phrase.placeholders.Nodup
  ordered : (t.fields.map (·.name)).Sublist phrase.placeholders
  flags : ∀ f ∈ phrase.fields, ∀ alternatives, f.kind = .flag alternatives →
    ∃ g ∈ t.fields, g.name = f.name ∧ g.value = .flag g.span?.isSome
  texts : ∀ f ∈ t.fields, ∀ text, f.value = .text text →
    ∃ s, f.span? = some s ∧ Text.slice? line s = some text

/-- A node of a tree that is read by the template of its phrase, as are all nodes above it. What a
hook answers with has no such nodes. -/
inductive IsTemplateNode (v : Vocabulary) (node : Capture) (phrase : Phrase) : Capture → Prop
  | self (declared : v.find? (·.kind == node.kind) = some phrase)
    (reading : phrase.reading = .fields) : IsTemplateNode v node phrase node
  | ofChild {t child : Capture} {outer : Phrase}
    (declared : v.find? (·.kind == t.kind) = some outer) (reading : outer.reading = .fields)
    (mem : child ∈ t.children) (inner : IsTemplateNode v node phrase child) :
    IsTemplateNode v node phrase t

/-- The phrase of a tree with such nodes has no hook. -/
theorem IsTemplateNode.exists_phrase {v : Vocabulary} {node t : Capture} {phrase : Phrase}
    (h : IsTemplateNode v node phrase t) :
    ∃ outer, v.find? (·.kind == t.kind) = some outer ∧ outer.reading = .fields := by
  cases h with
  | self declared reading => exact ⟨phrase, declared, reading⟩
  | ofChild declared reading _ _ => exact ⟨_, declared, reading⟩

end Capture

/-- A capture tree has the kind and exactly the span of its token. Fields lie inside of their nodes,
and children are sorted and held by one field each. A hook owes this for the tokens of a kind, like
everything that makes trees. -/
structure Hook.MakesTrees (v : Vocabulary) (kind : Kind) (hook : Hook) : Prop where
  token : ∀ line span tree, (Text.slice? line span).isSome → hook kind line span = .ok tree →
    tree.span = span ∧ tree.kind = kind
  nodes : ∀ line span tree, (Text.slice? line span).isSome → hook kind line span = .ok tree →
    ∀ node ∈ tree.walk, node.HoldsChildren v

namespace LoyaltyCost

theorem walk_capture (l : LoyaltyCost) (kind : Kind) (span : Span) :
    (l.capture kind span).walk = [l.capture kind span] := rfl

theorem readBack_eq_ok {kind : Kind} {line : Text} {span : Span} {tree : Capture}
    (h : readBack kind line span = .ok tree) :
    ∃ cost, ofText? (Text.slice line span) = some cost ∧ tree = cost.capture kind span := by
  rw [readBack] at h
  split at h
  · rename_i cost found
    exact ⟨cost, found, (Except.ok.inj h).symm⟩
  · cases h

end LoyaltyCost

namespace Lexicon

variable {v : Vocabulary} {l : Lexicon} {entries : List LexiconEntry} {line : Text} {kind : Kind}
  {span : Span} {tree : Capture}

/-- The entry of a kind, and the entries that are left when the kind is left aside. -/
theorem describes_of_find? {e : LexiconEntry}
    (described : ∀ e ∈ entries, ∃ phrase, e.Describes v phrase)
    (found : entries.find? (·.kind == kind) = some e) :
    e.kind = kind ∧ (∃ phrase, e.Describes v phrase) ∧
      (others entries kind).length < entries.length ∧
      ∀ e ∈ others entries kind, ∃ phrase, e.Describes v phrase :=
  ⟨by simpa using List.find?_some found, described e (List.mem_of_find?_eq_some found),
    length_others_lt found, fun e mem => described e (List.mem_filter.1 mem).1⟩

/-- How a tree has been read: by the hook of its entry, or by the fields. -/
theorem readWithin_eq_ok : readWithin entries line kind span = .ok tree ↔
    ∃ e, entries.find? (·.kind == kind) = some e ∧
      ((∃ hook, e.reading.hook? = some hook ∧ hook kind line span = .ok tree) ∨
      e.reading = .fields ∧ ∃ m readings, e.exact.find? (Text.slice line span) = some m ∧
        readFields (readWithin (others entries kind) line) (Text.slice line span) span.start m
          e.fields = .ok readings ∧
        assembleTree kind span readings = tree) := by
  rw [readWithin]
  split
  · rename_i none
    simp [none]
  · rename_i e found
    simp only [found, Option.some.injEq, exists_eq_left', ← Reading.hook?_eq_none_iff]
    split
    · rename_i hook reads
      simp [reads]
    · rename_i reads
      simp only [reads, reduceCtorEq, false_and, exists_false, true_and, false_or]
      split
      · rename_i none
        simp [none]
      · rename_i m found
        simp only [found, Option.some.injEq, exists_and_left, exists_eq_left', bind_eq_ok]
        simp [pure, Except.pure]

/-- The hook of a phrase takes the place of its fields. -/
theorem readBack_eq_hook (built : build v = .ok l) {phrase : Phrase} (mem : phrase ∈ v)
    {hook : Hook} (reads : phrase.reading.hook? = some hook) :
    l.readBack phrase.kind line span = hook phrase.kind line span := by
  obtain ⟨e, found, describes⟩ := exists_entry built mem
  rw [find?] at found
  rw [readBack, readWithin]
  split
  · rename_i none
    cases none.symm.trans found
  · rename_i e' found'
    obtain rfl := Option.some.inj (found'.symm.trans found)
    rw [describes.reading, reads]

section

variable {e : LexiconEntry} {phrase : Phrase} {text : Text} {m : Match}
  {nested : Kind → Span → Except Fault Capture} {readings : List FieldReading}

theorem exists_slice_of_group (describes : e.Describes v phrase)
    (found : e.exact.find? text = some m) {name : Text} {s : Span}
    (group : m.group? name = some s) : ∃ w, Text.slice? text s = some w := by
  obtain ⟨regex, -, exact⟩ := describes.exact
  rw [exact] at found
  exact Option.isSome_iff_exists.1 (Regex.Searcher.isSome_slice?_of_find? found group)

/-- The span of a reading is the span of a slice of the line, inside the span that is read. -/
theorem exists_slice_of_reading (describes : e.Describes v phrase)
    (valid : Text.slice? line span = some text) (found : e.exact.find? text = some m)
    (all : Readings nested text span.start m e.fields readings) {r : FieldReading}
    (mem : r ∈ readings) {s : Span} (eq : r.1.span? = some s) :
    ∃ w, Text.slice? line s = some w ∧ span.contains s := by
  obtain ⟨f, -, reads⟩ := all.read r mem
  rw [reads.span?] at eq
  obtain ⟨inner, group, rfl⟩ := Option.map_eq_some_iff.1 eq
  obtain ⟨w, slice⟩ := exists_slice_of_group describes found group
  exact ⟨w, Text.slice?_shift valid slice, Text.contains_shift valid slice⟩

/-- Every child has been read at the span of its field. -/
theorem exists_nested_of_child {fields : List LexiconField} {start : Nat} {c : Capture}
    (all : Readings nested text start m fields readings)
    (child : c ∈ (assembleTree kind span readings).children) :
    ∃ r ∈ readings, ∃ other s, r.1.span? = some s ∧ nested other s = .ok c := by
  obtain ⟨⟨place, c⟩, sorted, rfl⟩ := List.mem_map.1 child
  obtain ⟨f, at_place⟩ := mem_sortedTrees.1 sorted
  have mem := List.mem_of_getElem? at_place
  obtain ⟨g, -, reads⟩ := all.read _ mem
  generalize m.group? g.name = found? at reads
  cases reads with
  | nested kind read => exact ⟨_, mem, _, _, rfl, read⟩

/-- Every child has been read from a slice of the line. -/
theorem exists_read_of_child (describes : e.Describes v phrase)
    (valid : Text.slice? line span = some text) (found : e.exact.find? text = some m)
    (all : Readings nested text span.start m e.fields readings) {c : Capture}
    (child : c ∈ (assembleTree e.kind span readings).children) :
    ∃ other s, (Text.slice? line s).isSome ∧ nested other s = .ok c := by
  obtain ⟨r, mem, other, s, same, read⟩ := exists_nested_of_child all child
  obtain ⟨w, slice, -⟩ := exists_slice_of_reading describes valid found all mem same
  exact ⟨other, s, by rw [slice]; rfl, read⟩

/-- What a reading with a tree says about its field and its tree. -/
theorem of_tree_reading (describes : e.Describes v phrase)
    (valid : Text.slice? line span = some text) (found : e.exact.find? text = some m)
    (all : Readings nested text span.start m e.fields readings)
    (inner : ∀ other s t, (Text.slice? line s).isSome → nested other s = .ok t →
      t.span = s ∧ t.kind = other) {f : CaptureField} {t : Capture}
    (mem : (f, some t) ∈ readings) :
    f.span? = some t.span ∧
      ∃ field, phrase.field? f.name = some field ∧ field.kind = .nested t.kind := by
  obtain ⟨g, mem_g, reads⟩ := all.read _ mem
  obtain ⟨field, declared, built⟩ := describes.field?_eq mem_g
  generalize m.group? g.name = found? at reads
  cases reads with
  | nested kind read =>
    obtain ⟨w, slice, -⟩ := exists_slice_of_reading describes valid found all mem rfl
    obtain ⟨same, rfl⟩ := inner _ _ t (by rw [slice]; rfl) read
    exact ⟨congrArg some same.symm, field, declared, (of_buildField built).2.1.symm.trans kind⟩

theorem holdsChildren_assembleTree (describes : e.Describes v phrase)
    (valid : Text.slice? line span = some text) (found : e.exact.find? text = some m)
    (all : Readings nested text span.start m e.fields readings)
    (inner : ∀ other s t, (Text.slice? line s).isSome → nested other s = .ok t →
      t.span = s ∧ t.kind = other) :
    (assembleTree e.kind span readings).HoldsChildren v := by
  have tree_reading := fun f t => of_tree_reading (f := f) (t := t) describes valid found all inner
  have treeless : ∀ r ∈ readings, r.2 = none → r.1.childIndex? = none := by
    intro r mem none
    obtain ⟨f, -, reads⟩ := all.read r mem
    exact reads.childIndex? none
  refine ⟨?_, pairwise_sortedTrees readings, childIndices_assembleTree treeless, ?_⟩
  · intro f mem s eq
    obtain ⟨place, r, at_place, rfl⟩ := mem_fields_assembleTree.1 mem
    rw [span?_fieldOf] at eq
    obtain ⟨w, slice, inside⟩ :=
      exists_slice_of_reading describes valid found all (List.mem_of_getElem? at_place) eq
    refine ⟨?_, inside⟩
    rw [Text.stop_of_slice? slice]
    exact Nat.le_add_right _ _
  · intro f mem i eq
    obtain ⟨place, ⟨g, tree?⟩, at_place, rfl⟩ := mem_fields_assembleTree.1 mem
    have mem := List.mem_of_getElem? at_place
    cases tree? with
    | none => exact absurd eq (by simp [fieldOf, treeless _ mem rfl])
    | some t =>
      obtain ⟨same, field, declared, nested⟩ := tree_reading g t mem
      have rank_eq : rank readings place = i := Option.some.inj eq
      have at_rank := getElem?_rank (mem_sortedTrees.2 ⟨g, at_place⟩)
      refine ⟨t, phrase, field, ?_, same, describes.declared, declared, nested⟩
      rw [children_assembleTree, List.getElem?_map, ← rank_eq, at_rank]
      rfl

theorem readsTemplate_assembleTree (describes : e.Describes v phrase)
    (valid : Text.slice? line span = some text) (found : e.exact.find? text = some m)
    (all : Readings nested text span.start m e.fields readings) :
    (assembleTree e.kind span readings).ReadsTemplate line phrase := by
  refine ⟨?_, ?_, ?_, ?_⟩
  · obtain ⟨fields, placed, -⟩ := describes.fields
    exact placed.distinct
  · rw [names_assembleTree, ← describes.map_name]
    exact all.names
  · intro f mem alternatives flag
    obtain ⟨g, mem_g, built⟩ := describes.exists_field mem
    obtain ⟨name, kind, -⟩ := of_buildField built
    obtain ⟨r, mem_r, reads⟩ := all.all g mem_g (.inl ⟨alternatives, kind.trans flag⟩)
    obtain ⟨place, at_place⟩ := List.getElem?_of_mem mem_r
    obtain ⟨treeless, value⟩ := reads.of_flag (kind.trans flag)
    refine ⟨r.1, mem_fields_assembleTree.2 ⟨place, r, at_place, fieldOf_of_treeless treeless⟩,
      reads.name.trans name, ?_⟩
    rw [value, reads.span?, Option.isSome_map]
  · intro f mem w eq
    obtain ⟨place, r, at_place, rfl⟩ := mem_fields_assembleTree.1 mem
    obtain ⟨g, -, reads⟩ := all.read r (List.mem_of_getElem? at_place)
    obtain ⟨s, group, text_eq⟩ := reads.of_text (value_of_fieldOf nofun eq)
    obtain ⟨u, slice⟩ := exists_slice_of_group describes found group
    refine ⟨s.shift span.start, ?_, ?_⟩
    · rw [span?_fieldOf, reads.span?, group, Option.map_some]
    · rw [Text.slice?_shift valid slice, ← text_eq, Text.slice_eq slice]

end

/-- The tree of a phrase at a slice of a line keeps the kind and the span, and all of its nodes
fit together. -/
theorem readWithin_fitsTogether (described : ∀ e ∈ entries, ∃ phrase, e.Describes v phrase)
    (hooks : v.HooksKeep (Hook.MakesTrees v)) (valid : (Text.slice? line span).isSome)
    (h : readWithin entries line kind span = .ok tree) :
    tree.span = span ∧ tree.kind = kind ∧ (∀ node ∈ tree.walk, node.FitsTogether v) ∧
      ∀ node phrase, Capture.IsTemplateNode v node phrase tree →
        node.ReadsTemplate line phrase := by
  induction size : entries.length using Nat.strongRecOn generalizing entries kind span tree with
  | _ size' ih =>
    obtain ⟨text, slice⟩ := Option.isSome_iff_exists.1 valid
    obtain ⟨e, found, read⟩ := readWithin_eq_ok.1 h
    obtain ⟨rfl, ⟨phrase, describes⟩, less, rest⟩ := describes_of_find? described found
    have inner : ∀ other s t, (Text.slice? line s).isSome →
        readWithin (others entries e.kind) line other s = .ok t → _ :=
      fun other s t valid h => ih _ (size ▸ less) rest valid h rfl
    rcases read with ⟨hook, reads, read⟩ | ⟨reading, m, readings, exact, fields, rfl⟩
    · have owed := describes.keeps hooks reads
      obtain ⟨same, kind⟩ := owed.token line span tree valid read
      have nodes := owed.nodes line span tree valid read
      refine ⟨same, kind, fun node mem => (nodes node mem).fitsTogether,
        fun node inside template => ?_⟩
      obtain ⟨outer, declared, fields⟩ := template.exists_phrase
      obtain rfl := Option.some.inj (describes.declared.symm.trans (kind ▸ declared))
      rw [describes.reading, fields] at reads
      cases reads
    · rw [Text.slice_eq slice] at exact fields
      have all := readings_of_readFields fields
      have child_read := fun c child =>
        exists_read_of_child (c := c) describes slice exact all child
      refine ⟨rfl, rfl, fun node mem => ?_, fun node template isNode => ?_⟩
      · rcases Capture.mem_walk.1 mem with rfl | ⟨c, child, mem⟩
        · refine (holdsChildren_assembleTree describes slice exact all
            fun other s t valid h => ?_).fitsTogether
          exact ⟨(inner other s t valid h).1, (inner other s t valid h).2.1⟩
        · obtain ⟨other, s, valid, read⟩ := child_read c child
          exact (inner other s c valid read).2.2.1 node mem
      · cases isNode with
        | self declared _ =>
          obtain rfl := Option.some.inj (describes.declared.symm.trans declared)
          exact readsTemplate_assembleTree describes slice exact all
        | ofChild _ _ child isNode =>
          obtain ⟨other, s, valid, read⟩ := child_read _ child
          exact (inner other s _ valid read).2.2.2 node template isNode

/-- A flag, and a cost in a nested phrase, where the cost has a hook. -/
def tappedCards : Vocabulary := [
  { kind := .loyaltyCost
    template := "{cost}:"
    fields := [.words "cost" ["[+−-][1-9]"]]
    reading := .loyaltyCost },
  { kind := .activationCost
    template := "pay {cost}"
    fields := [.nested "cost" .loyaltyCost] },
  { kind := .objectRef
    template := "{cost} {tapped} card"
    fields := [.nested "cost" .activationCost, .flag "tapped" ["tapped"]] }]

theorem only_tappedCards : ∀ phrase ∈ tappedCards, ∀ hook, phrase.reading ≠ .hook hook := by
  simp [tappedCards]

/-- What is asked of hooks is needed: where all that is read back fits together, hooks make trees of
their tokens. -/
theorem hooksKeep_makesTrees_iff (built : build v = .ok l) :
    v.HooksKeep (Hook.MakesTrees v) ↔
      ∀ kind line span tree, (Text.slice? line span).isSome →
        l.readBack kind line span = .ok tree →
        tree.span = span ∧ tree.kind = kind ∧ ∀ node ∈ tree.walk, node.FitsTogether v := by
  constructor
  · intro hooks kind line span tree valid read
    obtain ⟨same, kind, nodes, -⟩ :=
      readWithin_fitsTogether (fun _ mem => exists_describes built mem) hooks valid read
    exact ⟨same, kind, nodes⟩
  · intro all phrase mem hook reads
    refine ⟨fun line span tree valid read => ?_, fun line span tree valid read => ?_⟩
    all_goals
      rw [← readBack_eq_hook built mem reads] at read
      obtain ⟨same, kind, nodes⟩ := all phrase.kind line span tree valid read
    · exact ⟨same, kind⟩
    · exact fun node mem => (nodes node mem).toHoldsChildren

end Lexicon

end RulesText
