import Mathlib.Data.List.Forall2
import Mathlib.Data.List.Nodup
import Mathlib.Tactic.Choose
import RulesText.Pattern.Compiler

/-!
# What a compiler renders

A pattern is determined by the vocabulary alone: it is put together from the fields of its phrase
in the order of their placeholders, and each nested phrase gives its own pattern. The patterns
that a compiler has kept are all of this kind, so it does not matter whether a nested pattern is
rendered or taken from those.

## Main definitions

* `Compiler.Renders`: the pattern of a kind in a vocabulary.
* `CompileM.Yields`: what a computation gives while the patterns that are kept have a property.
* `Compiler.Nests`: which kinds are nested in which.
-/

namespace RulesText

/-- What is looked for by a key of its own is found. -/
theorem find?_key {α β : Type} [BEq β] [LawfulBEq β] {key : α → β} {l : List α}
    (distinct : (l.map key).Nodup) {a : α} (mem : a ∈ l) :
    l.find? (key · == key a) = some a := by
  have isSome : (l.find? (key · == key a)).isSome :=
    List.find?_isSome.2 ⟨a, mem, beq_self_eq_true (key a)⟩
  obtain ⟨b, found⟩ := Option.isSome_iff_exists.1 isSome
  have same : key b = key a := by simpa using List.find?_some found
  rw [found, List.inj_on_of_nodup_map distinct (List.mem_of_find?_eq_some found) mem same]

/-- The placeholders of the phrase's template. -/
def Phrase.placeholders (p : Phrase) : List Text :=
  Template.placeholders (Template.parse p.template)

namespace Compiler

/-- A field with its group, where `nested` gives the patterns of other kinds. -/
def renderedField (nested : Kind → Pattern) (f : Field) : RenderedField :=
  match f.kind with
  | .choice family => .ofAlternatives f family.sources
  | .flag alternatives | .words alternatives => .ofAlternatives f alternatives
  | .nested kind => .ofNested f (nested kind)

/-- The placeholders of a phrase are different and stand for the given fields of it, and it has
no others. -/
structure Placed (phrase : Phrase) (fields : List Field) : Prop where
  checked : Rendering.checkFields phrase.kind phrase.placeholders [] phrase.fields = .ok ()
  distinct : phrase.placeholders.Nodup
  found : phrase.placeholders.map phrase.field? = fields.map some

/-- In the vocabulary, the kind has the given pattern. -/
inductive Renders (v : Vocabulary) : Kind → Pattern → Prop
  | intro {kind : Kind} {phrase : Phrase} {fields : List Field} {nested : Kind → Pattern}
    {p : Pattern}
    (declared : v.find? (·.kind == kind) = some phrase)
    (placed : Placed phrase fields)
    (inner : ∀ f ∈ fields, ∀ other, f.kind = .nested other → Renders v other (nested other))
    (assembled : Rendering.assemble phrase.kind (Template.parse phrase.template)
      (fields.map (renderedField nested)) = .ok p) :
    Renders v kind p

variable {v : Vocabulary} {phrase : Phrase} {fields : List Field} {kind : Kind} {p q : Pattern}

theorem renderedField_congr {f : Field} {nested other : Kind → Pattern}
    (h : ∀ kind, f.kind = .nested kind → nested kind = other kind) :
    renderedField nested f = renderedField other f := by
  unfold renderedField
  split
  · rfl
  · rfl
  · rfl
  · rename_i kind eq
    rw [h kind eq]

@[simp] theorem name_renderedField (nested : Kind → Pattern) (f : Field) :
    (renderedField nested f).name = f.name := by
  unfold renderedField
  split <;> rfl

theorem name_of_field? {name : Text} {f : Field} (h : phrase.field? name = some f) :
    f.name = name := by
  simpa using List.find?_some h

theorem kind_of_find? (h : v.find? (·.kind == kind) = some phrase) : phrase.kind = kind := by
  simpa using List.find?_some h

/-- The fields stand in the order of their placeholders. -/
theorem map_name_of_found {names : List Text} (h : names.map phrase.field? = fields.map some) :
    fields.map (·.name) = names := by
  induction names generalizing fields with
  | nil => simpa using h.symm
  | cons name names ih =>
    cases fields with
    | nil => simp at h
    | cons f fields =>
      obtain ⟨first, rest⟩ := List.cons.inj h
      rw [List.map_cons, ih rest, name_of_field? first]

theorem Placed.map_name (h : Placed phrase fields) :
    fields.map (·.name) = phrase.placeholders :=
  map_name_of_found h.found

theorem Placed.unique {others : List Field} (h : Placed phrase fields)
    (g : Placed phrase others) : fields = others :=
  (List.map_inj_right fun _ _ => Option.some.inj).1 (h.found.symm.trans g.found)

/-- A kind has one pattern only. -/
theorem Renders.unique (hp : Renders v kind p) (hq : Renders v kind q) : p = q := by
  induction hp generalizing q with
  | intro declared placed inner assembled ih =>
    obtain ⟨declared', placed', inner', assembled'⟩ := hq
    obtain rfl := Option.some.inj (declared.symm.trans declared')
    obtain rfl := placed.unique placed'
    have same := List.map_congr_left fun f mem =>
      renderedField_congr fun other eq => ih f mem other eq (inner' f mem other eq)
    rw [same] at assembled
    exact Except.ok.inj (assembled.symm.trans assembled')

theorem kind_of_assemble {snippets : List Snippet} {rendered : List RenderedField}
    (h : Rendering.assemble kind snippets rendered = .ok p) :
    p.kind = kind ∧ p.fields = rendered.map (·.name) := by
  rw [Rendering.assemble] at h
  split at h
  · cases h
  · obtain rfl := Except.ok.inj h
    exact ⟨rfl, rfl⟩

theorem Renders.kind_eq (h : Renders v kind p) : p.kind = kind := by
  obtain ⟨declared, placed, inner, assembled⟩ := h
  rw [(kind_of_assemble assembled).1, kind_of_find? declared]

/-- A pattern has the fields of its phrase in template order. -/
theorem Renders.placed (h : Renders v kind p) : ∃ phrase fields,
    v.find? (·.kind == kind) = some phrase ∧ Placed phrase fields ∧
      p.fields = phrase.placeholders := by
  obtain ⟨declared, placed, inner, assembled⟩ := h
  refine ⟨_, _, declared, placed, ?_⟩
  rw [(kind_of_assemble assembled).2, ← placed.map_name, List.map_map]
  exact List.map_congr_left fun f _ => name_renderedField _ f

end Compiler

/-! ## Computations -/

namespace CompileM

variable {α β : Type} {I : Pattern → Prop} {P : α → Prop} {Q : β → Prop}

/-- If all patterns that have been kept have the property `I`, then so do those that are kept
afterwards, and a result has the property `P`. -/
def Yields (I : Pattern → Prop) (x : CompileM α) (P : α → Prop) : Prop :=
  ∀ kept, (∀ p ∈ kept, I p) →
    (∀ p ∈ (x.run.run kept).2, I p) ∧ ∀ a, (x.run.run kept).1 = .ok a → P a

theorem Yields.pure {a : α} (h : P a) : Yields I (pure a) P := by
  intro kept all
  refine ⟨all, fun b eq => ?_⟩
  obtain rfl := Except.ok.inj eq
  exact h

theorem Yields.throw (fault : Fault) : Yields I (throw fault : CompileM α) P := by
  intro kept all
  exact ⟨all, fun b eq => by cases eq⟩

theorem run_bind (x : CompileM α) (f : α → CompileM β) (kept : List Pattern) :
    (x >>= f).run.run kept = match x.run.run kept with
      | (.ok a, kept) => (f a).run.run kept
      | (.error fault, kept) => (.error fault, kept) := by
  simp only [ExceptT.run_bind, StateT.run_bind]
  generalize x.run.run kept = result
  obtain ⟨_ | a, kept⟩ := result <;> rfl

theorem Yields.bind {x : CompileM α} {f : α → CompileM β} (hx : Yields I x P)
    (hf : ∀ a, P a → Yields I (f a) Q) : Yields I (x >>= f) Q := by
  intro kept all
  obtain ⟨all, result⟩ := hx kept all
  rw [run_bind]
  split
  · rename_i a kept eq
    rw [eq] at all result
    exact hf a (result a rfl) kept all
  · rename_i fault kept eq
    rw [eq] at all
    exact ⟨all, fun b h => by cases h⟩

theorem Yields.get : Yields I get fun kept => ∀ p ∈ kept, I p := by
  intro kept all
  refine ⟨all, fun b eq => ?_⟩
  obtain rfl := Except.ok.inj eq
  exact all

theorem Yields.keep {p : Pattern} (h : I p) :
    Yields I (modify (· ++ [p])) fun _ => True := by
  intro kept all
  refine ⟨fun q mem => ?_, fun _ _ => trivial⟩
  rcases List.mem_append.1 mem with mem | mem
  · exact all q mem
  · exact List.mem_singleton.1 mem ▸ h

theorem Yields.imp {x : CompileM α} {P' : α → Prop} (h : Yields I x P) (sub : ∀ a, P a → P' a) :
    Yields I x P' :=
  fun kept all => ⟨(h kept all).1, fun a eq => sub a ((h kept all).2 a eq)⟩

end CompileM

namespace Compiler

open CompileM (Yields)

variable {v : Vocabulary} {phrase : Phrase} {nested : Kind → CompileM Pattern}
  {I : Pattern → Prop} {R : Kind → Pattern → Prop}

/-- The group of a field is rendered from patterns that belong to the nested kinds. -/
def RendersField (R : Kind → Pattern → Prop) (f : Field) (r : RenderedField) : Prop :=
  ∃ patterns : Kind → Pattern, (∀ kind, f.kind = .nested kind → R kind (patterns kind)) ∧
    r = renderedField patterns f

theorem RendersField.name_eq {f : Field} {r : RenderedField} (h : RendersField R f r) :
    r.name = f.name := by
  obtain ⟨patterns, -, rfl⟩ := h
  exact name_renderedField patterns f

theorem yields_renderField (inner : ∀ kind, Yields I (nested kind) (R kind)) (f : Field) :
    Yields I (renderField nested f) (RendersField R f) := by
  unfold renderField
  split
  · rename_i family eq
    exact .pure ⟨fun kind => ⟨kind, [], [], [], .other, .other⟩, by simp [eq], by
      simp [renderedField, eq]⟩
  · rename_i alternatives eq
    exact .pure ⟨fun kind => ⟨kind, [], [], [], .other, .other⟩, by simp [eq], by
      simp [renderedField, eq]⟩
  · rename_i alternatives eq
    exact .pure ⟨fun kind => ⟨kind, [], [], [], .other, .other⟩, by simp [eq], by
      simp [renderedField, eq]⟩
  · rename_i kind eq
    refine (inner kind).bind fun p rendered => .pure ⟨fun _ => p, ?_, ?_⟩
    · rintro other same
      obtain rfl := FieldKind.nested.inj (eq.symm.trans same)
      exact rendered
    · simp [renderedField, eq]

/-- The fields that have been rendered for some placeholders. -/
structure RendersFields (R : Kind → Pattern → Prop) (phrase : Phrase) (done : List RenderedField)
    (names : List Text) (rendered : List RenderedField) : Prop where
  distinct : names.Nodup
  fresh : ∀ name ∈ names, name ∉ done.map (·.name)
  fields : ∃ fields new, names.map phrase.field? = fields.map some ∧
    List.Forall₂ (RendersField R) fields new ∧ rendered = done ++ new

theorem yields_renderFields (inner : ∀ kind, Yields I (nested kind) (R kind))
    (done : List RenderedField) (names : List Text) :
    Yields I (renderFields nested phrase done names) (RendersFields R phrase done names) := by
  induction names generalizing done with
  | nil => exact .pure ⟨.nil, by simp, [], [], rfl, .nil, (List.append_nil _).symm⟩
  | cons name names ih =>
    rw [renderFields]
    split
    · exact .throw _
    · rename_i f found
      split
      · exact .throw _
      · rename_i new
        refine (yields_renderField inner f).bind fun r field => (ih _).imp ?_
        rintro rendered ⟨distinct, fresh, fields, later, names_eq, all, rfl⟩
        have name_eq : r.name = name := field.name_eq.trans (name_of_field? found)
        refine ⟨?_, ?_, f :: fields, r :: later, ?_, .cons field all, ?_⟩
        · refine List.nodup_cons.2 ⟨fun mem => fresh name mem ?_, distinct⟩
          exact List.mem_map.2 ⟨r, List.mem_append_right _ List.mem_cons_self, name_eq⟩
        · refine List.forall_mem_cons.2 ⟨fun old => new ?_, fun other mem old => fresh other mem ?_⟩
          · obtain ⟨r, mem, eq⟩ := List.mem_map.1 old
            exact List.any_eq_true.2 ⟨r, mem, beq_iff_eq.2 eq⟩
          · rw [List.map_append]
            exact List.mem_append_left _ old
        · rw [List.map_cons, List.map_cons, found, names_eq]
        · rw [List.append_assoc, List.singleton_append]

/-- The patterns of all nested phrases together, each of which the kind determines. -/
theorem exists_nested (unique : ∀ kind p q, R kind p → R kind q → p = q) {fields : List Field}
    {rendered : List RenderedField} (h : List.Forall₂ (RendersField R) fields rendered) :
    ∃ patterns : Kind → Pattern,
      (∀ f ∈ fields, ∀ kind, f.kind = .nested kind → R kind (patterns kind)) ∧
      rendered = fields.map (renderedField patterns) := by
  have exists_pattern : ∀ kind, ∃ p, ∀ q, R kind q → q = p := by
    intro kind
    by_cases some : ∃ p, R kind p
    · obtain ⟨p, rendered⟩ := some
      exact ⟨p, fun q other => unique kind q p other rendered⟩
    · exact ⟨⟨kind, [], [], [], .other, .other⟩, fun q other => absurd ⟨q, other⟩ some⟩
  choose patterns unique using exists_pattern
  refine ⟨patterns, ?_⟩
  induction h with
  | nil => exact ⟨by simp, rfl⟩
  | cons field _ ih =>
    obtain ⟨own, renders, rfl⟩ := field
    refine ⟨List.forall_mem_cons.2 ⟨fun kind eq => ?_, ih.1⟩, ?_⟩
    · exact unique kind _ (renders kind eq) ▸ renders kind eq
    · rw [List.map_cons, ← ih.2, renderedField_congr fun kind eq => unique kind _ (renders kind eq)]

theorem yields_liftExcept {α : Type} (x : Except Fault α) :
    Yields I (render.liftExcept x) fun a => x = .ok a := by
  cases x with
  | ok a => exact .pure rfl
  | error fault => exact .throw _

/-- A phrase is assembled from its fields, where each nested kind gives one pattern only. -/
theorem yields_assemble (unique : ∀ kind p q, R kind p → R kind q → p = q)
    (inner : ∀ kind, Yields I (nested kind) (R kind)) (phrase : Phrase) :
    Yields I (render nested phrase) fun p => ∃ fields patterns, Placed phrase fields ∧
      (∀ f ∈ fields, ∀ kind, f.kind = .nested kind → R kind (patterns kind)) ∧
      Rendering.assemble phrase.kind (Template.parse phrase.template)
        (fields.map (renderedField patterns)) = .ok p := by
  refine (yields_liftExcept _).bind fun _ checked => ?_
  refine (yields_renderFields inner [] _).bind fun rendered fields => ?_
  refine (yields_liftExcept _).imp fun p assembled => ?_
  obtain ⟨distinct, -, fields, new, found, all, rfl⟩ := fields
  obtain ⟨patterns, renders, rfl⟩ := exists_nested unique all
  exact ⟨fields, patterns, ⟨checked, distinct, found⟩, renders, assembled⟩

theorem yields_render {kind : Kind} (declared : v.find? (·.kind == kind) = some phrase)
    (inner : ∀ other, Yields I (nested other) (Renders v other)) :
    Yields I (render nested phrase) (Renders v kind) := by
  have unique : ∀ kind p q, Renders v kind p → Renders v kind q → p = q :=
    fun _ _ _ => Renders.unique
  refine (yields_assemble unique inner phrase).imp ?_
  rintro p ⟨fields, patterns, placed, renders, assembled⟩
  exact .intro declared placed renders assembled

theorem compileWithin_eq (v : Vocabulary) (depth : Nat) (path : List Kind) (kind : Kind) :
    compileWithin v depth path kind = (do
      match (← get).find? (·.kind == kind) with
      | some p => pure p
      | none =>
        if path.contains kind then
          throw (.cyclicNesting (path.dropWhile (· != kind) ++ [kind]))
        else
          match depth, v.find? (·.kind == kind) with
          | depth + 1, some phrase => do
            let p ← render (compileWithin v depth (path ++ [kind])) phrase
            modify (· ++ [p])
            pure p
          | _, _ => throw (.undeclaredKind kind)) := by
  conv => lhs; unfold compileWithin
  refine bind_congr fun kept => ?_
  cases kept.find? (·.kind == kind) with
  | some p => rfl
  | none =>
    cases depth <;> cases v.find? (·.kind == kind) <;> cases path.contains kind <;> rfl

theorem renders_of_find? {kept : List Pattern} {kind : Kind} {p : Pattern}
    (all : ∀ p ∈ kept, Renders v p.kind p) (h : kept.find? (·.kind == kind) = some p) :
    Renders v kind p := by
  have eq : p.kind = kind := by simpa using List.find?_some h
  exact eq ▸ all p (List.mem_of_find?_eq_some h)

/-- A compiler gives patterns of its vocabulary. -/
theorem yields_compileWithin (v : Vocabulary) (depth : Nat) (path : List Kind) (kind : Kind) :
    Yields (fun p => Renders v p.kind p) (compileWithin v depth path kind) (Renders v kind) := by
  induction depth using Nat.strongRecOn generalizing path kind with
  | _ depth ih =>
    rw [compileWithin_eq]
    refine Yields.get.bind fun kept all => ?_
    split
    · rename_i p found
      exact .pure (renders_of_find? all found)
    · split
      · exact .throw _
      · split
        · rename_i less phrase declared
          refine (yields_render declared (ih less (Nat.lt_succ_self less) _)).bind ?_
          intro p rendered
          exact (Yields.keep (rendered.kind_eq ▸ rendered)).bind fun _ _ => .pure rendered
        · exact .throw _

/-- What a compiler renders next belongs to its vocabulary, if all that it has kept does. -/
theorem renders_compile {c : Compiler} (all : ∀ p ∈ c.rendered, Renders c.vocabulary p.kind p)
    (kind : Kind) :
    (c.compile kind).2.vocabulary = c.vocabulary ∧
      (∀ p ∈ (c.compile kind).2.rendered, Renders c.vocabulary p.kind p) ∧
      ∀ p, (c.compile kind).1 = .ok p → Renders c.vocabulary kind p :=
  ⟨rfl, yields_compileWithin c.vocabulary c.vocabulary.length [] kind c.rendered all⟩

/-! ## Declarations -/

theorem checkFields_eq_ok {placeholders seen : List Text} {fields : List Field} {kind : Kind}
    (h : Rendering.checkFields kind placeholders seen fields = .ok ()) :
    (fields.map (·.name)).Nodup ∧ ∀ f ∈ fields, f.name ∈ placeholders ∧ f.name ∉ seen := by
  induction fields generalizing seen with
  | nil => simp
  | cons f fields ih =>
    rw [Rendering.checkFields] at h
    split at h
    · cases h
    · rename_i new
      split at h
      · cases h
      · rename_i placed
        obtain ⟨nodup, all⟩ := ih h
        have fresh : ∀ g ∈ fields, g.name ≠ f.name ∧ g.name ∉ seen := fun g mem => by
          simpa using (all g mem).2
        refine ⟨List.nodup_cons.2 ⟨fun mem => ?_, nodup⟩, List.forall_mem_cons.2 ⟨?_, ?_⟩⟩
        · obtain ⟨g, mem, eq⟩ := List.mem_map.1 mem
          exact (fresh g mem).1 eq
        · simpa using And.intro placed new
        · exact fun g mem => ⟨(all g mem).1, (fresh g mem).2⟩

/-- Every declared field has a placeholder of its own. -/
theorem Placed.mem_placeholders (h : Placed phrase fields) {f : Field}
    (mem : f ∈ phrase.fields) : f.name ∈ phrase.placeholders :=
  ((checkFields_eq_ok h.checked).2 f mem).1

/-- A field is found by its name. -/
theorem Placed.field?_name (h : Placed phrase fields) {f : Field} (mem : f ∈ phrase.fields) :
    phrase.field? f.name = some f :=
  find?_key (checkFields_eq_ok h.checked).1 mem

theorem nodup_of_repeatedKind? {seen : List Kind} {v : Vocabulary}
    (h : repeatedKind? seen v = none) :
    (v.map (·.kind)).Nodup ∧ ∀ phrase ∈ v, phrase.kind ∉ seen := by
  induction v generalizing seen with
  | nil => simp
  | cons phrase v ih =>
    rw [repeatedKind?] at h
    split at h
    · cases h
    · rename_i new
      obtain ⟨nodup, all⟩ := ih h
      have fresh : ∀ other ∈ v, other.kind ≠ phrase.kind ∧ other.kind ∉ seen :=
        fun other mem => by simpa using all other mem
      refine ⟨List.nodup_cons.2 ⟨fun mem => ?_, nodup⟩, List.forall_mem_cons.2 ⟨?_, ?_⟩⟩
      · obtain ⟨other, mem, eq⟩ := List.mem_map.1 mem
        exact (fresh other mem).1 eq
      · simpa using new
      · exact fun other mem => (fresh other mem).2

/-- In an accepted vocabulary every phrase is found by its kind. -/
theorem find?_of_new {v : Vocabulary} {c : Compiler} (h : Compiler.new v = .ok c)
    {phrase : Phrase} (mem : phrase ∈ v) : v.find? (·.kind == phrase.kind) = some phrase := by
  rw [Compiler.new] at h
  split at h
  · cases h
  · rename_i none
    exact find?_key (nodup_of_repeatedKind? none).1 mem

/-! ## Nesting -/

/-- The phrase of the kind `outer` has a field for phrases of the kind `inner`. -/
def Nests (v : Vocabulary) (inner outer : Kind) : Prop :=
  ∃ phrase, v.find? (·.kind == outer) = some phrase ∧ ∃ f ∈ phrase.fields, f.kind = .nested inner

theorem Placed.mem_fields (h : Placed phrase fields) {f : Field} (mem : f ∈ phrase.fields) :
    f ∈ fields := by
  have found : phrase.field? f.name ∈ phrase.placeholders.map phrase.field? :=
    List.mem_map_of_mem (h.mem_placeholders mem)
  rw [h.found, h.field?_name mem] at found
  obtain ⟨_, mem', eq⟩ := List.mem_map.1 found
  exact Option.some.inj eq ▸ mem'

/-- What is nested in a kind that has a pattern does not go on without end. -/
theorem Renders.acc (h : Renders v kind p) : Acc (Nests v) kind := by
  induction h with
  | intro declared placed inner assembled ih =>
    refine ⟨_, fun other ⟨phrase, declared', f, mem, eq⟩ => ?_⟩
    obtain rfl := Option.some.inj (declared.symm.trans declared')
    exact ih f (placed.mem_fields mem) other eq

/-- A kind that has a pattern is not nested in itself, not even at a deeper level. -/
theorem Renders.not_nests_self (h : Renders v kind p) : ¬Relation.TransGen (Nests v) kind kind := by
  have acc := h.acc.transGen
  induction acc with
  | intro kind _ ih => exact fun same => ih kind same h same

end Compiler

end RulesText
