import RulesText.Capture.ReadBack
import RulesText.Proofs.LexiconEntry
import RulesText.Proofs.Text.Slices

/-!
# Readings and their tree

A field that takes part reads as a value at the span of its group, and a nested phrase also has a
tree. When the readings become one tree, the trees of the nested phrases are sorted by their
spans, and each of them is found by the place of its field among the readings.

## Main definitions

* `Lexicon.ReadsAs`: what a field reads as.
* `Lexicon.placedTrees`: the trees among readings before they are sorted.
* `Lexicon.rank`: the place of a field's tree after they have been sorted.
-/

namespace RulesText

/-- The index of the child that a field holds. -/
def CaptureField.childIndex? (f : CaptureField) : Option Nat :=
  match f.value with
  | .child index => some index
  | _ => none

namespace Lexicon

/-! ## Reading fields -/

section

variable {nested : Kind → Span → Except Fault Capture} {text : Text} {start : Nat}
  {f : LexiconField} {found? : Option Span} {r : FieldReading} {m : Match}

/-- What a field reads as when its group has captured the given span of `text`, which starts at
`start` in the line. -/
inductive ReadsAs (nested : Kind → Span → Except Fault Capture) (text : Text) (start : Nat)
    (f : LexiconField) : Option Span → FieldReading → Prop
  | flag {alternatives : List Text} {found? : Option Span} (kind : f.kind = .flag alternatives) :
    ReadsAs nested text start f found?
      ({ name := f.name, value := .flag found?.isSome, span? := found?.map (·.shift start) }, none)
  | choice {family : Family} {found : Span} {member : Member} {index : Nat}
    (kind : f.kind = .choice family)
    (first : index = f.members.findIdx (·.searcher.occursIn (Text.slice text found)))
    (isMember : family.members[index]? = some member) :
    ReadsAs nested text start f (some found)
      ({ name := f.name, value := .choice family.name member.name index,
         span? := some (found.shift start) }, none)
  | words {alternatives : List Text} {found : Span} (kind : f.kind = .words alternatives) :
    ReadsAs nested text start f (some found)
      ({ name := f.name, value := .text (Text.slice text found),
         span? := some (found.shift start) }, none)
  | nested {inner : Kind} {found : Span} {tree : Capture} (kind : f.kind = .nested inner)
    (read : nested inner (found.shift start) = .ok tree) :
    ReadsAs nested text start f (some found)
      ({ name := f.name, value := .child 0, span? := some (found.shift start) }, some tree)

theorem readsAs_of_readField (h : readField nested text start f found? = .ok (some r)) :
    ReadsAs nested text start f found? r := by
  rw [readField.eq_def] at h
  split at h
  · rename_i kind
    obtain rfl := Option.some.inj (Except.ok.inj h)
    exact .flag kind
  · cases h
  · rename_i kind
    dsimp only at h
    split at h
    · rename_i isMember
      obtain rfl := Option.some.inj (Except.ok.inj h)
      exact .choice kind rfl isMember
    · cases h
  · rename_i kind
    obtain rfl := Option.some.inj (Except.ok.inj h)
    exact .words kind
  · rename_i kind
    obtain ⟨tree, read, h⟩ := bind_eq_ok.1 h
    obtain rfl := Option.some.inj (Except.ok.inj h)
    exact .nested kind read

namespace ReadsAs

theorem name (h : ReadsAs nested text start f found? r) : r.1.name = f.name := by
  cases h <;> rfl

theorem span? (h : ReadsAs nested text start f found? r) :
    r.1.span? = found?.map (·.shift start) := by
  cases h <;> rfl

/-- Only fields with a tree hold a child. -/
theorem childIndex? (h : ReadsAs nested text start f found? r) (treeless : r.2 = none) :
    r.1.childIndex? = none := by
  cases h
  case nested => cases treeless
  all_goals rfl

theorem of_flag {alternatives : List Text} (h : ReadsAs nested text start f found? r)
    (flag : f.kind = .flag alternatives) : r.2 = none ∧ r.1.value = .flag found?.isSome := by
  cases h with
  | flag => exact ⟨rfl, rfl⟩
  | choice kind | words kind | nested kind => cases kind.symm.trans flag

theorem of_choice {name member : Text} {index : Nat} (h : ReadsAs nested text start f found? r)
    (eq : r.1.value = .choice name member index) : ∃ family m s, f.kind = .choice family ∧
      found? = some s ∧ index = f.members.findIdx (·.searcher.occursIn (Text.slice text s)) ∧
      family.members[index]? = some m ∧ name = family.name ∧ member = m.name := by
  cases h with
  | choice kind first isMember =>
    obtain ⟨rfl, rfl, rfl⟩ := CaptureValue.choice.inj eq
    exact ⟨_, _, _, kind, rfl, first, isMember, rfl, rfl⟩
  | flag | words | nested => cases eq

theorem of_text {w : Text} (h : ReadsAs nested text start f found? r)
    (eq : r.1.value = .text w) : ∃ s, found? = some s ∧ Text.slice text s = w := by
  cases h with
  | words => exact ⟨_, rfl, CaptureValue.text.inj eq⟩
  | flag | choice | nested => cases eq

end ReadsAs

/-- The readings of some fields. -/
structure Readings (nested : Kind → Span → Except Fault Capture) (text : Text) (start : Nat)
    (m : Match) (fields : List LexiconField) (readings : List FieldReading) : Prop where
  read : ∀ r ∈ readings, ∃ f ∈ fields, ReadsAs nested text start f (m.group? f.name) r
  /-- The readings stand in the order of the fields. -/
  names : (readings.map (·.1.name)).Sublist (fields.map (·.name))
  /-- A flag always has a reading, any other field if its group took part. -/
  all : ∀ f ∈ fields, (∃ alternatives, f.kind = .flag alternatives) ∨ (m.group? f.name).isSome →
    ∃ r ∈ readings, ReadsAs nested text start f (m.group? f.name) r

theorem exists_reading (h : readField nested text start f found? = .ok none) :
    (¬∃ alternatives, f.kind = .flag alternatives) ∧ found? = none := by
  rw [readField.eq_def] at h
  split at h
  · cases h
  · rename_i not_flag
    exact ⟨fun ⟨alternatives, eq⟩ => not_flag alternatives eq, rfl⟩
  · dsimp only at h
    split at h <;> cases h
  · cases h
  · obtain ⟨tree, -, h⟩ := bind_eq_ok.1 h
    cases h

theorem readings_of_readFields {fields : List LexiconField} {readings : List FieldReading}
    (h : readFields nested text start m fields = .ok readings) :
    Readings nested text start m fields readings := by
  induction fields generalizing readings with
  | nil =>
    obtain rfl := Except.ok.inj h
    exact ⟨by simp, by simp, by simp⟩
  | cons f fields ih =>
    simp only [readFields, bind_eq_ok] at h
    obtain ⟨r?, first, rest, later, h⟩ := h
    obtain rfl := Except.ok.inj h
    have ih := ih later
    cases r? with
    | none =>
      obtain ⟨not_flag, absent⟩ := exists_reading first
      refine ⟨fun r mem => ?_, ih.names.cons _, List.forall_mem_cons.2 ⟨fun part => ?_, ih.all⟩⟩
      · obtain ⟨g, mem, reads⟩ := ih.read r mem
        exact ⟨g, List.mem_cons_of_mem _ mem, reads⟩
      · rw [absent] at part
        exact absurd part (by simpa using not_flag)
    | some r =>
      have reads := readsAs_of_readField first
      refine ⟨List.forall_mem_cons.2 ⟨⟨f, List.mem_cons_self, reads⟩, fun r mem => ?_⟩, ?_,
        List.forall_mem_cons.2 ⟨fun _ => ⟨r, List.mem_cons_self, reads⟩, fun g mem part => ?_⟩⟩
      · obtain ⟨g, mem, reads⟩ := ih.read r mem
        exact ⟨g, List.mem_cons_of_mem _ mem, reads⟩
      · change (r.1.name :: rest.map (·.1.name)).Sublist (f.name :: fields.map (·.name))
        rw [reads.name]
        exact ih.names.cons_cons _
      · obtain ⟨r, mem, reads⟩ := ih.all g mem part
        exact ⟨r, List.mem_cons_of_mem _ mem, reads⟩

end

/-! ## Sorting trees -/

variable {kind : Kind} {span : Span} {readings : List FieldReading} {place i : Nat} {tree : Capture}

/-- The trees among the readings with the places of their fields, in the order of the fields. -/
def placedTrees (readings : List FieldReading) : List (Nat × Capture) :=
  readings.zipIdx.filterMap fun ((_, tree?), place) => tree?.map (place, ·)

theorem sortedTrees_perm (readings : List FieldReading) :
    (sortedTrees readings).Perm (placedTrees readings) :=
  List.mergeSort_perm _ _

theorem mem_placedTrees :
    (place, tree) ∈ placedTrees readings ↔ ∃ f, readings[place]? = some (f, some tree) := by
  rw [placedTrees, List.mem_filterMap]
  constructor
  · rintro ⟨⟨⟨f, tree?⟩, n⟩, mem, eq⟩
    obtain ⟨t, rfl, ⟨⟩⟩ := Option.map_eq_some_iff.1 eq
    exact ⟨f, List.mem_zipIdx_iff_getElem?.1 mem⟩
  · rintro ⟨f, eq⟩
    exact ⟨((f, some tree), place), List.mem_zipIdx_iff_getElem?.2 eq, rfl⟩

theorem mem_sortedTrees :
    (place, tree) ∈ sortedTrees readings ↔ ∃ f, readings[place]? = some (f, some tree) :=
  (sortedTrees_perm readings).mem_iff.trans mem_placedTrees

theorem nodup_places (readings : List FieldReading) :
    ((sortedTrees readings).map (·.1)).Nodup := by
  refine ((sortedTrees_perm readings).map _).nodup_iff.2 ?_
  have distinct : (readings.zipIdx.map (·.2)).Nodup := by
    rw [List.zipIdx_map_snd]
    exact List.nodup_range'
  rw [List.nodup_iff_pairwise_ne, List.pairwise_map] at distinct ⊢
  refine List.pairwise_filterMap.2 (distinct.imp fun ne p first q second => ?_)
  obtain ⟨t, -, rfl⟩ := Option.map_eq_some_iff.1 first
  obtain ⟨u, -, rfl⟩ := Option.map_eq_some_iff.1 second
  exact ne

theorem pairwise_sortedTrees (readings : List FieldReading) :
    ((sortedTrees readings).map (·.2)).Pairwise fun a b => (a.span.compare b.span).isLE := by
  refine List.pairwise_map.2 (List.pairwise_mergeSort ?_ ?_ _)
  · intro a b c
    simp only [Span.compare_isLE_iff]
    omega
  · intro a b
    simp only [Bool.or_eq_true, Span.compare_isLE_iff]
    omega

/-- The place of the tree of a field among the sorted trees. -/
def rank (readings : List FieldReading) (place : Nat) : Nat :=
  (sortedTrees readings).findIdx (·.1 == place)

/-- What has a key of its own is the first one with it. -/
theorem findIdx_key {α β : Type} [BEq β] [LawfulBEq β] {key : α → β} {l : List α}
    (distinct : (l.map key).Nodup) (h : i < l.length) : l.findIdx (key · == key l[i]) = i := by
  refine (List.findIdx_eq h).2 ⟨beq_self_eq_true _, fun j lt => beq_eq_false_iff_ne.2 fun eq => ?_⟩
  have lt_i : i < (l.map key).length := by rwa [List.length_map]
  have lt_j : j < (l.map key).length := Nat.lt_trans lt lt_i
  have same : (l.map key)[j] = (l.map key)[i] := by rw [List.getElem_map, List.getElem_map, eq]
  exact absurd (distinct.getElem_inj_iff.1 same) (Nat.ne_of_lt lt)

theorem rank_getElem (h : i < (sortedTrees readings).length) :
    rank readings (sortedTrees readings)[i].1 = i :=
  findIdx_key (nodup_places readings) h

theorem getElem?_rank (h : (place, tree) ∈ sortedTrees readings) :
    (sortedTrees readings)[rank readings place]? = some (place, tree) := by
  obtain ⟨i, lt, eq⟩ := List.getElem_of_mem h
  have := rank_getElem lt
  rw [eq] at this
  rw [this, List.getElem?_eq_getElem lt, eq]

theorem map_rank (readings : List FieldReading) :
    (sortedTrees readings).map (fun p => rank readings p.1) =
      List.range (sortedTrees readings).length := by
  refine List.ext_getElem (by simp) fun i lt _ => ?_
  rw [List.getElem_map, List.getElem_range]
  exact rank_getElem (by simpa using lt)

/-! ## The tree -/

@[simp] theorem kind_assembleTree (kind : Kind) (span : Span) (readings : List FieldReading) :
    (assembleTree kind span readings).kind = kind := rfl

@[simp] theorem span_assembleTree (kind : Kind) (span : Span) (readings : List FieldReading) :
    (assembleTree kind span readings).span = span := rfl

theorem children_assembleTree (kind : Kind) (span : Span) (readings : List FieldReading) :
    (assembleTree kind span readings).children = (sortedTrees readings).map (·.2) := rfl

/-- The field at some place of the tree. -/
def fieldOf (readings : List FieldReading) (place : Nat) (r : FieldReading) : CaptureField :=
  match r.2 with
  | none => r.1
  | some _ => { r.1 with value := .child (rank readings place) }

theorem fields_assembleTree (kind : Kind) (span : Span) (readings : List FieldReading) :
    (assembleTree kind span readings).fields =
      readings.zipIdx.map fun (r, place) => fieldOf readings place r := rfl

theorem fieldOf_of_treeless {r : FieldReading} (treeless : r.2 = none) :
    fieldOf readings place r = r.1 := by
  rw [fieldOf, treeless]

/-- A value that is no child has been read. -/
theorem value_of_fieldOf {r : FieldReading} {value : CaptureValue}
    (childless : ∀ index, value ≠ .child index)
    (eq : (fieldOf readings place r).value = value) : r.1.value = value := by
  unfold fieldOf at eq
  split at eq
  · exact eq
  · exact absurd eq.symm (childless _)

@[simp] theorem name_fieldOf (r : FieldReading) :
    (fieldOf readings place r).name = r.1.name := by
  unfold fieldOf
  split <;> rfl

@[simp] theorem span?_fieldOf (r : FieldReading) :
    (fieldOf readings place r).span? = r.1.span? := by
  unfold fieldOf
  split <;> rfl

theorem mem_fields_assembleTree {f : CaptureField} :
    f ∈ (assembleTree kind span readings).fields ↔
      ∃ place r, readings[place]? = some r ∧ fieldOf readings place r = f := by
  rw [fields_assembleTree, List.mem_map]
  constructor
  · rintro ⟨⟨r, place⟩, mem, rfl⟩
    exact ⟨place, r, List.mem_zipIdx_iff_getElem?.1 mem, rfl⟩
  · rintro ⟨place, r, eq, rfl⟩
    exact ⟨(r, place), List.mem_zipIdx_iff_getElem?.2 eq, rfl⟩

theorem names_assembleTree (kind : Kind) (span : Span) (readings : List FieldReading) :
    (assembleTree kind span readings).fields.map (·.name) = readings.map (·.1.name) := by
  rw [fields_assembleTree, List.map_map]
  conv => rhs; rw [← List.zipIdx_map_fst 0 readings, List.map_map]
  exact List.map_congr_left fun ⟨r, place⟩ _ => name_fieldOf r

/-- The fields hold the index of each child once, and no others. -/
theorem childIndices_assembleTree
    (treeless : ∀ r ∈ readings, r.2 = none → r.1.childIndex? = none) :
    ((assembleTree kind span readings).fields.filterMap (·.childIndex?)).Perm
      (List.range (assembleTree kind span readings).children.length) := by
  have held : (assembleTree kind span readings).fields.filterMap (·.childIndex?) =
      (placedTrees readings).map fun p => rank readings p.1 := by
    rw [fields_assembleTree, List.filterMap_map, placedTrees, List.map_filterMap]
    refine List.filterMap_congr fun ⟨⟨f, tree?⟩, n⟩ mem => ?_
    cases tree? with
    | none => exact treeless _ (List.fst_mem_of_mem_zipIdx mem) rfl
    | some tree => rfl
  rw [held, children_assembleTree, List.length_map, ← map_rank]
  exact (sortedTrees_perm readings).symm.map _

end Lexicon

end RulesText
