import RulesText.Proofs.Capture.Trees
import RulesText.Proofs.Regex.Captured

/-!
# Reading back agrees with the search

A token is read back from its own text, and each nested phrase from the text that its group has
captured. Under conditions on the expressions of a lexicon, none of this fails, and every field
has the span of its group in the match that has produced the token.

## Main definitions

* `LexiconEntry.IsFaithful`: the expressions of an entry see nothing outside their matches, and
  what a choice captures is matched by a member.
* `Lexicon.Faithful`: the same for an entry and all that are nested in it.
* `Capture.Shows`, `Capture.Tracks`: what a node shows of its fields, by what their groups have
  captured.

## Main statements

* `Lexicon.exists_readWithin`: a best match is read back, and all nodes show its groups.
-/

namespace RulesText

/-- What a node shows of a field whose group has captured the given span. -/
structure Capture.Shows (t : Capture) (f : LexiconField) (found? : Option Span) : Prop where
  span : (t.get? f.name).bind (·.span?) = found?
  /-- A field is left out if its group took no part, unless it is a flag. -/
  isSome : (t.get? f.name).isSome ↔ (∃ alternatives, f.kind = .flag alternatives) ∨ found?.isSome
  flag : ∀ alternatives, f.kind = .flag alternatives → t.flag f.name = found?.isSome

/-- A node has only fields of the given list, and shows of each of them what its group has
captured. -/
structure Capture.Tracks (t : Capture) (fields : List LexiconField) (group? : Text → Option Span) :
    Prop where
  named : ∀ g ∈ t.fields, ∃ f ∈ fields, t.get? f.name = some g
  shows : ∀ f ∈ fields, t.Shows f (group? f.name)

namespace Capture.Tracks

variable {t : Capture} {fields : List LexiconField} {group? group'? : Text → Option Span}

theorem congr (h : t.Tracks fields group?) (same : ∀ f ∈ fields, group'? f.name = group? f.name) :
    t.Tracks fields group'? :=
  ⟨h.named, fun f mem => same f mem ▸ h.shows f mem⟩

end Capture.Tracks

/-- The group of a field that is reached through nested fields. -/
def Pattern.groupAt (path : List Text) (field : Text) : Text :=
  path.foldr Pattern.qualified field

/-- One of the members matches every text that the expression matches. -/
def LexiconField.Covers (f : LexiconField) (family : Family) (body : Regex) : Prop :=
  f.members.length = family.members.length ∧
    ∀ (c d : Cursor) (u : Text), c.Through u d → body.Matches c d →
      ∃ p ∈ f.members, p.searcher.occursIn u

/-- The expressions of an entry see nothing outside their matches, every field has a group that
takes part at most once, and what a choice captures is matched by a member. -/
structure LexiconEntry.IsFaithful (e : LexiconEntry) : Prop where
  reading : e.reading = .fields
  distinct : (e.fields.map (·.name)).Nodup
  exact : e.exact = e.regex.whole.searcher
  isSealed : e.regex.isSealed
  capturesOnce : e.regex.capturesOnce
  names : e.regex.names.Nodup
  groups : ∀ f ∈ e.fields, ∃ body, (f.name, body) ∈ e.regex.namedGroups ∧
    ∀ family, f.kind = .choice family → f.Covers family body

namespace Lexicon

/-- The entry of a kind is faithful, and so are all that are nested in it. The group of a nested
phrase has the expression of that phrase, with the field's name before all of its groups. -/
inductive Faithful : List LexiconEntry → Kind → LexiconEntry → Prop
  | mk {entries : List LexiconEntry} {kind : Kind} {e : LexiconEntry}
    (found : entries.find? (·.kind == kind) = some e) (faithful : e.IsFaithful)
    (inner : LexiconField → LexiconEntry)
    (nested : ∀ f ∈ e.fields, ∀ other, f.kind = .nested other →
      Faithful (others entries kind) other (inner f))
    (group : ∀ f ∈ e.fields, ∀ other, f.kind = .nested other →
      (f.name, (inner f).regex.rename (Pattern.qualified f.name)) ∈ e.regex.namedGroups) :
    Faithful entries kind e

variable {entries : List LexiconEntry} {kind : Kind} {e : LexiconEntry} {line u : Text}
  {c : Cursor} {v w : Match} {nested : Kind → Span → Except Fault Capture}
  {readings : List FieldReading} {f : LexiconField} {span : Span}

theorem exists_readField {text : Text} {start : Nat} {found? : Option Span}
    (choice : ∀ family s, f.kind = .choice family → found? = some s →
      ∃ p ∈ f.members, p.searcher.occursIn (Text.slice text s))
    (members : ∀ family, f.kind = .choice family → f.members.length = family.members.length)
    (trees : ∀ other s, f.kind = .nested other → found? = some s →
      ∃ tree, nested other (s.shift start) = .ok tree) :
    ∃ r?, readField nested text start f found? = .ok r? := by
  rw [readField.eq_def]
  split
  · exact ⟨_, rfl⟩
  · exact ⟨_, rfl⟩
  · rename_i family s field
    obtain ⟨p, mem, occurs⟩ := choice family s field rfl
    have lt : f.members.findIdx (·.searcher.occursIn (Text.slice text s)) < family.members.length :=
      members family field ▸ List.findIdx_lt_length_of_exists ⟨p, mem, occurs⟩
    dsimp only
    rw [List.getElem?_eq_getElem lt]
    exact ⟨_, rfl⟩
  · exact ⟨_, rfl⟩
  · rename_i other s field
    obtain ⟨tree, read⟩ := trees other s field rfl
    exact ⟨_, bind_eq_ok.2 ⟨tree, read, rfl⟩⟩

theorem exists_readFields {text : Text} {start : Nat} {m : Match} {fields : List LexiconField}
    (h : ∀ f ∈ fields, ∃ r?, readField nested text start f (m.group? f.name) = .ok r?) :
    ∃ readings, readFields nested text start m fields = .ok readings := by
  induction fields with
  | nil => exact ⟨[], rfl⟩
  | cons f fields ih =>
    obtain ⟨r?, first⟩ := h f List.mem_cons_self
    obtain ⟨rest, later⟩ := ih fun g mem => h g (List.mem_cons_of_mem _ mem)
    exact ⟨_, bind_eq_ok.2 ⟨r?, first, bind_eq_ok.2 ⟨rest, later, rfl⟩⟩⟩

/-! ## What a node shows -/

section

variable {text : Text} {start : Nat} {m : Match} {fields : List LexiconField} {tree : Capture}

theorem get?_assembleTree (kind : Kind) (span : Span)
    (distinct : (readings.map (·.1.name)).Nodup) {r : FieldReading} (mem : r ∈ readings) :
    ∃ place, readings[place]? = some r ∧
      (assembleTree kind span readings).get? r.1.name = some (fieldOf readings place r) := by
  obtain ⟨place, at_place⟩ := List.getElem?_of_mem mem
  refine ⟨place, at_place, ?_⟩
  have inside : fieldOf readings place r ∈ (assembleTree kind span readings).fields :=
    mem_fields_assembleTree.2 ⟨place, r, at_place, rfl⟩
  rw [← names_assembleTree kind span] at distinct
  have := find?_key distinct inside
  rwa [name_fieldOf] at this

/-- A node shows what the groups of its fields have captured. -/
theorem shows_assembleTree (all : Readings nested text start m fields readings)
    (distinct : (fields.map (·.name)).Nodup) (mem : f ∈ fields) :
    (assembleTree kind span readings).Shows f ((m.group? f.name).map (·.shift start)) := by
  have distinct' : (readings.map (·.1.name)).Nodup := all.names.nodup distinct
  by_cases part : (∃ alternatives, f.kind = .flag alternatives) ∨ (m.group? f.name).isSome
  · obtain ⟨r, mem_r, reads⟩ := all.all f mem part
    obtain ⟨place, -, get⟩ := get?_assembleTree kind span distinct' mem_r
    rw [reads.name] at get
    refine ⟨?_, ?_, fun alternatives flag => ?_⟩
    · rw [get, Option.bind_some, span?_fieldOf, reads.span?]
    · rw [get, Option.isSome_map]
      exact iff_of_true rfl part
    · obtain ⟨treeless, value⟩ := reads.of_flag flag
      rw [Capture.flag, Capture.value?, get, Option.map_some, fieldOf_of_treeless treeless, value,
        Option.isSome_map]
      cases (m.group? f.name).isSome <;> rfl
  · rw [not_or] at part
    have absent : m.group? f.name = none := by simpa using part.2
    have get : (assembleTree kind span readings).get? f.name = none := by
      refine List.find?_eq_none.2 fun g inside same => ?_
      obtain ⟨place, r, at_place, rfl⟩ := mem_fields_assembleTree.1 inside
      obtain ⟨f', mem', reads⟩ := all.read r (List.mem_of_getElem? at_place)
      have same : f'.name = f.name := by simpa [reads.name] using same
      obtain rfl := List.inj_on_of_nodup_map distinct mem' mem same
      rw [absent] at reads
      cases reads with
      | flag kind => exact part.1 ⟨_, kind⟩
    refine ⟨?_, ?_, fun alternatives flag => absurd ⟨alternatives, flag⟩ part.1⟩
    · rw [get, absent]
      rfl
    · rw [get, absent]
      exact iff_of_false nofun fun part' => part'.elim part.1 nofun

/-- All fields of a node have been read. -/
theorem tracks_assembleTree (all : Readings nested text start m fields readings)
    (distinct : (fields.map (·.name)).Nodup) :
    (assembleTree kind span readings).Tracks fields fun name =>
      (m.group? name).map (·.shift start) := by
  refine ⟨fun g mem => ?_, fun f mem => shows_assembleTree all distinct mem⟩
  obtain ⟨place, r, at_place, rfl⟩ := mem_fields_assembleTree.1 mem
  obtain ⟨f, field, reads⟩ := all.read r (List.mem_of_getElem? at_place)
  have distinct' : ((assembleTree kind span readings).fields.map (·.name)).Nodup :=
    names_assembleTree kind span readings ▸ all.names.nodup distinct
  have get := find?_key distinct' mem
  rw [name_fieldOf, reads.name] at get
  exact ⟨f, field, get⟩

theorem exists_of_child? (all : Readings nested text start m fields readings) {name : Text}
    (child : (assembleTree kind span readings).child? name = some tree) :
    ∃ f ∈ fields, ∃ inner s, f.name = name ∧ f.kind = .nested inner ∧
      m.group? name = some s ∧ nested inner (s.shift start) = .ok tree := by
  rw [Capture.child?, Capture.value?] at child
  split at child
  · rename_i index value
    obtain ⟨g, get, value⟩ := Option.map_eq_some_iff.1 value
    have named : g.name = name := by simpa using List.find?_some get
    obtain ⟨place, r, at_place, rfl⟩ := mem_fields_assembleTree.1 (List.mem_of_find?_eq_some get)
    obtain ⟨f, mem, reads⟩ := all.read r (List.mem_of_getElem? at_place)
    obtain ⟨g, tree?⟩ := r
    rw [name_fieldOf, reads.name] at named
    cases tree? with
    | none =>
      have treeless : fieldOf readings place (g, none) = g := fieldOf_of_treeless rfl
      have := reads.childIndex? rfl
      rw [CaptureField.childIndex?, ← treeless, value] at this
      cases this
    | some tree' =>
      have index_eq : rank readings place = index := CaptureValue.child.inj value
      have at_rank := getElem?_rank (mem_sortedTrees.2 ⟨g, at_place⟩)
      rw [children_assembleTree, List.getElem?_map, ← index_eq, at_rank] at child
      obtain rfl := Option.some.inj child
      subst named
      generalize found : m.group? f.name = found? at reads
      cases reads with
      | nested kind read => exact ⟨f, mem, _, _, rfl, kind, rfl, read⟩
  · cases child

end

/-! ## Best matches are read back -/

theorem find?_of_others {other : Kind}
    (found : (others entries kind).find? (·.kind == other) = some e) :
    entries.find? (·.kind == other) = some e := by
  have ne : e.kind ≠ kind := by simpa using (List.mem_filter.1 (List.mem_of_find?_eq_some found)).2
  have same : e.kind = other := by simpa using List.find?_some found
  rw [others, List.find?_filter] at found
  rw [← found]
  congr 1
  funext e'
  by_cases eq : e'.kind = other
  · simp [eq, ← same, ne]
  · simp [eq]

theorem Faithful.isFaithful (h : Faithful entries kind e) : e.IsFaithful := by
  cases h
  assumption

/-- What the group of a field has captured in the line, if the match of the token's own text has
captured `s`. -/
theorem exists_captured (faithful : e.IsFaithful) (place : c.IsPlace line)
    (best : e.regex.Best { stop := c } w) (alone : w = v.within (.between c w.stop))
    {name : Text} {body : Regex} {s : Span}
    (mem : (name, body) ∈ e.regex.namedGroups) (captured : v.group? name = some s) :
    ∃ (b : Cursor) (m : Match), b.IsPlace line ∧ body.Best { stop := b } m ∧
      s.shift c.offset = b.spanTo m.stop ∧
      ∀ inner ∈ body.names, w.group? inner = m.group? inner := by
  have steady := Regex.isSteady_of_isSealed faithful.isSealed
  have group : w.group? name = some (s.shift c.offset) := by
    rw [alone, Match.group?_within, captured]
    rfl
  rcases Regex.holds_of_best steady faithful.capturesOnce faithful.names best mem with
    unset | ⟨b, m, left, -, best, holds, inside⟩
  · rw [unset] at group
    cases group
  · exact ⟨b, m, place.reaches left, best, Option.some.inj (group.symm.trans holds), inside⟩

theorem group?_regroup {rename : Text → Text} (injective : rename.Injective) (m : Match)
    (name : Text) : (m.regroup rename []).group? (rename name) = m.group? name := by
  obtain ⟨stop, groups, looked⟩ := m
  simp only [Match.group?, Match.regroup, List.append_nil]
  induction groups with
  | nil => rfl
  | cons p groups ih =>
    have same : (rename name == rename p.1) = (name == p.1) := by
      rw [Bool.eq_iff_iff, beq_iff_eq, beq_iff_eq]
      exact injective.eq_iff
    rw [List.map_cons, List.lookup_cons, List.lookup_cons, same, ih]

theorem qualified_injective (name : Text) : (Pattern.qualified name).Injective :=
  fun _ _ same => List.append_cancel_left same

/-- What the group of a nested phrase has captured is a best match of that phrase. -/
theorem exists_captured_nested (faithful : e.IsFaithful) (place : c.IsPlace line)
    (best : e.regex.Best { stop := c } w) (alone : w = v.within (.between c w.stop))
    {name : Text} {r : Regex} {s : Span}
    (mem : (name, r.rename (Pattern.qualified name)) ∈ e.regex.namedGroups)
    (captured : v.group? name = some s) :
    ∃ (b : Cursor) (m : Match), b.IsPlace line ∧ r.Best { stop := b } m ∧
      s.shift c.offset = b.spanTo m.stop ∧ ∀ inner ∈ r.names,
        Pattern.qualified name inner ∈ e.regex.names ∧
        w.group? (Pattern.qualified name inner) = m.group? inner := by
  obtain ⟨b, m, place, best, same, inside⟩ := exists_captured faithful place best alone mem captured
  obtain ⟨m, best', rfl⟩ := best.exists_renamed
  refine ⟨b, m, place, best', same, fun inner known => ?_⟩
  have known : Pattern.qualified name inner ∈ (r.rename (Pattern.qualified name)).names := by
    rw [Regex.names_rename]
    exact List.mem_map_of_mem known
  exact ⟨(Regex.names_of_mem_namedGroups mem).2 known,
    (inside _ known).trans (group?_regroup (qualified_injective name) m inner)⟩

/-- The text that a group has captured is matched by the group's own expression. -/
theorem exists_matched (faithful : e.IsFaithful) (place : c.IsPlace line)
    (slice : Text.slice? line (c.spanTo w.stop) = some u)
    (best : e.regex.Best { stop := c } w) (alone : w = v.within (.between c w.stop))
    (exact : e.regex.whole.searcher.find? u = some v) {name : Text} {body : Regex} {s : Span}
    (mem : (name, body) ∈ e.regex.namedGroups) (captured : v.group? name = some s) :
    ∃ b d : Cursor, b.Through (Text.slice u s) d ∧ body.Matches b d := by
  obtain ⟨b, m, place, best, same, -⟩ := exists_captured faithful place best alone mem captured
  have step := best.matches (Regex.isSteady_of_mem_namedGroups
    (Regex.isSteady_of_isSealed faithful.isSealed) mem)
  obtain ⟨x, through⟩ := Regex.matches_forward _ _ _ step
  obtain ⟨y, inner⟩ := Option.isSome_iff_exists.1
    (Regex.Searcher.isSome_slice?_of_find? exact captured)
  have outer := Text.slice?_shift slice inner
  rw [show (c.spanTo w.stop).start = c.offset from rfl, same, place.slice?_spanTo through] at outer
  obtain rfl := Option.some.inj outer
  exact ⟨b, m.stop, Text.slice_eq inner ▸ through, step⟩

/-- A best match is read back, and every node shows what the groups have captured in it. -/
theorem exists_readWithin (h : Faithful entries kind e) (place : c.IsPlace line)
    (best : e.regex.Best { stop := c } w) :
    ∃ tree, readWithin entries line kind (c.spanTo w.stop) = .ok tree ∧
      ∀ path node, tree.descend? path = some node →
        ∃ inner, entries.find? (·.kind == node.kind) = some inner ∧
          (∀ f ∈ inner.fields, Pattern.groupAt path f.name ∈ e.regex.names) ∧
          node.Tracks inner.fields fun name => w.group? (Pattern.groupAt path name) := by
  induction h generalizing c w with
  | @mk entries kind e found faithful inner nested group ih =>
    have steady := Regex.isSteady_of_isSealed faithful.isSealed
    obtain ⟨u, through⟩ := Regex.matches_forward _ _ _ (best.matches steady)
    obtain ⟨v, exact, alone⟩ := Regex.find?_whole faithful.isSealed through best
    have slice := place.slice?_spanTo through
    have read : ∀ f ∈ e.fields, ∃ r?, readField (readWithin (others entries kind) line) u c.offset f
        (v.group? f.name) = .ok r? := by
      intro f mem
      obtain ⟨body, group_mem, covers⟩ := faithful.groups f mem
      refine exists_readField (fun family s field captured => ?_)
        (fun family field => (covers family field).1) fun other s field captured => ?_
      · obtain ⟨b, d, through, step⟩ :=
          exists_matched faithful place slice best alone exact group_mem captured
        exact (covers family field).2 b d _ through step
      · obtain ⟨b, m, place', best', same, -⟩ :=
          exists_captured_nested faithful place best alone (group f mem other field) captured
        obtain ⟨tree, read, -⟩ := ih f mem other field place' best'
        exact ⟨tree, same ▸ read⟩
    obtain ⟨readings, fields⟩ := exists_readFields read
    have all := readings_of_readFields fields
    refine ⟨assembleTree kind (c.spanTo w.stop) readings, ?_, fun path node descends => ?_⟩
    · refine readWithin_eq_ok.2 ⟨e, found, .inr ⟨faithful.reading, v, readings, ?_, ?_, rfl⟩⟩
      · rw [Text.slice_eq slice, faithful.exact, exact]
      · rw [Text.slice_eq slice]
        exact fields
    · cases path with
      | nil =>
        obtain rfl := Option.some.inj descends
        refine ⟨e, found, fun f mem => ?_, ?_⟩
        · obtain ⟨body, group_mem, -⟩ := faithful.groups f mem
          exact (Regex.names_of_mem_namedGroups group_mem).1
        · refine (tracks_assembleTree all faithful.distinct).congr fun f _ => ?_
          conv_lhs => rw [alone]
          exact Match.group?_within f.name
      | cons name path =>
        obtain ⟨t, child, descends⟩ := Option.bind_eq_some_iff.1 descends
        obtain ⟨f, mem, other, s, rfl, field, captured, read⟩ := exists_of_child? all child
        obtain ⟨b, m, place', best', same, inside⟩ :=
          exists_captured_nested faithful place best alone (group f mem other field) captured
        obtain ⟨tree, read', tracks⟩ := ih f mem other field place' best'
        rw [same, read'] at read
        obtain rfl := Except.ok.inj read
        obtain ⟨entry, found', known, tracks⟩ := tracks path node descends
        exact ⟨entry, find?_of_others found', fun g mem => (inside _ (known g mem)).1,
          tracks.congr fun g mem => (inside _ (known g mem)).2⟩

end Lexicon

end RulesText
