import Mathlib.Algebra.Group.Nat.Even
import Mathlib.Data.Fintype.EquivFin
import Mathlib.Order.WellFounded
import RulesText.Proofs.Pattern.Outcome
import RulesText.Proofs.Template

/-!
# Which kinds have a pattern

A kind has a pattern exactly if every phrase that it leads to through nested fields is declared
and sound by itself, and no kind among them is nested in itself.

## Main definitions

* `Phrase.IsSound`: the declared fields and the placeholders of the template are the same, with
  no name twice, and the double quotes of the template come in pairs.
-/

namespace RulesText

instance : Finite Kind :=
  .of_surjective (fun i : Fin Kind.all.length => Kind.all.get i) fun kind =>
    let ⟨i, eq⟩ := List.get_of_mem (Kind.mem_all kind)
    ⟨i, eq⟩

/-- A phrase without a fault of its own. -/
structure Phrase.IsSound (phrase : Phrase) : Prop where
  fields_distinct : (phrase.fields.map (·.name)).Nodup
  placeholders_distinct : phrase.placeholders.Nodup
  same_names : ∀ name, name ∈ phrase.placeholders ↔ name ∈ phrase.fields.map (·.name)
  quotes_even : Even (phrase.template.count '"')

namespace Compiler

variable {v : Vocabulary} {kind inner : Kind} {phrase : Phrase} {p : Pattern}

/-! ## One phrase -/

theorem checkFields_of {placeholders seen : List Text} {fields : List Field}
    (distinct : (fields.map (·.name)).Nodup)
    (placed : ∀ f ∈ fields, f.name ∈ placeholders ∧ f.name ∉ seen) :
    Rendering.checkFields kind placeholders seen fields = .ok () := by
  induction fields generalizing seen with
  | nil => rfl
  | cons f fields ih =>
    obtain ⟨new, distinct⟩ := List.nodup_cons.1 distinct
    obtain ⟨⟨mem, fresh⟩, placed⟩ := List.forall_mem_cons.1 placed
    have later : ∀ g ∈ fields, g.name ∈ placeholders ∧ g.name ∉ f.name :: seen := by
      intro g inside
      have other : g.name ≠ f.name := fun eq => new (List.mem_map.2 ⟨g, inside, eq⟩)
      simpa [other] using placed g inside
    rw [Rendering.checkFields, if_neg (by simpa using fresh), if_neg (by simpa using mem)]
    exact ih distinct later

theorem map_eq_map_some {α β : Type} {f : α → Option β} {l : List α}
    (all : ∀ a ∈ l, (f a).isSome) : l.map f = (l.filterMap f).map some := by
  induction l with
  | nil => rfl
  | cons a l ih =>
    obtain ⟨first, rest⟩ := List.forall_mem_cons.1 all
    obtain ⟨b, eq⟩ := Option.isSome_iff_exists.1 first
    rw [List.map_cons, List.filterMap_cons_some eq, List.map_cons, ih rest, eq]

/-- A sound phrase has a field for each placeholder. -/
theorem exists_placed (sound : phrase.IsSound) : ∃ fields, Placed phrase fields := by
  have checked : Rendering.checkFields phrase.kind phrase.placeholders [] phrase.fields = .ok () :=
    checkFields_of sound.fields_distinct fun f mem =>
      ⟨(sound.same_names f.name).2 (List.mem_map_of_mem mem), List.not_mem_nil⟩
  have found : ∀ name ∈ phrase.placeholders, (phrase.field? name).isSome := by
    intro name mem
    obtain ⟨f, inside, eq⟩ := List.mem_map.1 ((sound.same_names name).1 mem)
    exact List.find?_isSome.2 ⟨f, inside, beq_iff_eq.2 eq⟩
  exact ⟨_, checked, sound.placeholders_distinct, map_eq_map_some found⟩

theorem assemble_eq_ok {fields : List RenderedField} :
    (∃ p, Rendering.assemble kind (Template.parse phrase.template) fields = .ok p) ↔
      Even (phrase.template.count '"') := by
  rw [Rendering.assemble, Template.count_literalText, Nat.even_iff]
  split <;> simp_all

/-- A phrase that is rendered is sound. -/
theorem Renders.isSound (h : Renders v kind p) :
    ∃ phrase, v.find? (·.kind == kind) = some phrase ∧ phrase.IsSound := by
  obtain ⟨declared, placed, -, assembled⟩ := h
  rename_i phrase fields _
  obtain ⟨distinct, mem⟩ := checkFields_eq_ok placed.checked
  refine ⟨phrase, declared, distinct, placed.distinct, fun name => ⟨fun inside => ?_, ?_⟩, ?_⟩
  · rw [← placed.map_name] at inside
    obtain ⟨f, inside, eq⟩ := List.mem_map.1 inside
    exact List.mem_map.2 ⟨f, placed.declares inside, eq⟩
  · intro inside
    obtain ⟨f, declared, rfl⟩ := List.mem_map.1 inside
    exact (mem f declared).1
  · exact assemble_eq_ok.1 ⟨p, assembled⟩

/-! ## All phrases -/

/-- What is nested in a kind that has a pattern has one too. -/
theorem Renders.of_nests (h : Renders v kind p) (nests : Nests v inner kind) :
    ∃ q, Renders v inner q := by
  obtain ⟨declared, placed, rendered, -⟩ := h
  obtain ⟨phrase, declared', f, mem, eq⟩ := nests
  obtain rfl := Option.some.inj (declared.symm.trans declared')
  exact ⟨_, rendered f (placed.mem_fields mem) inner eq⟩

theorem Renders.of_reaches (h : Renders v kind p)
    (reaches : Relation.ReflTransGen (Nests v) inner kind) : ∃ q, Renders v inner q := by
  induction reaches using Relation.ReflTransGen.head_induction_on with
  | refl => exact ⟨p, h⟩
  | head nests _ ih =>
    obtain ⟨q, rendered⟩ := ih
    exact rendered.of_nests nests

/-- A sound phrase has a pattern if all phrases nested in it have. -/
theorem exists_renders_of_nests (declared : v.find? (·.kind == kind) = some phrase)
    (sound : phrase.IsSound) (all : ∀ inner, Nests v inner kind → ∃ q, Renders v inner q) :
    ∃ p, Renders v kind p := by
  obtain ⟨fields, placed⟩ := exists_placed sound
  have patterns : ∀ inner, ∃ q, Nests v inner kind → Renders v inner q := by
    intro inner
    by_cases nests : Nests v inner kind
    · obtain ⟨q, rendered⟩ := all inner nests
      exact ⟨q, fun _ => rendered⟩
    · exact ⟨⟨inner, [], [], [], .other, .other⟩, fun h => absurd h nests⟩
  choose nested rendered using patterns
  obtain ⟨p, assembled⟩ := assemble_eq_ok.2 sound.quotes_even
  exact ⟨p, .intro declared placed (fun f mem other eq =>
    rendered other (nests_of_placed declared placed mem eq)) assembled⟩

/-- A kind has a pattern exactly if all phrases that it leads to are declared and sound, and none
of them leads to itself. -/
theorem exists_renders_iff : (∃ p, Renders v kind p) ↔
    (∀ inner, Relation.ReflTransGen (Nests v) inner kind →
      ∃ phrase, v.find? (·.kind == inner) = some phrase ∧ phrase.IsSound) ∧
    ¬∃ inner, Relation.ReflTransGen (Nests v) inner kind ∧
      Relation.TransGen (Nests v) inner inner := by
  constructor
  · rintro ⟨p, rendered⟩
    refine ⟨fun inner reaches => ?_, fun ⟨inner, reaches, cycle⟩ => ?_⟩
    · obtain ⟨q, rendered⟩ := rendered.of_reaches reaches
      exact rendered.isSound
    · obtain ⟨q, rendered⟩ := rendered.of_reaches reaches
      exact rendered.not_nests_self cycle
  · rintro ⟨sound, acyclic⟩
    -- Below the kind, being nested is a strict order on finitely many kinds.
    let Below (inner outer : Kind) : Prop :=
      Relation.TransGen (Nests v) inner outer ∧ Relation.ReflTransGen (Nests v) outer kind
    have : IsTrans Kind Below := ⟨fun a b c ab bc => ⟨ab.1.trans bc.1, bc.2⟩⟩
    have : Std.Irrefl Below := ⟨fun a cycle => acyclic ⟨a, cycle.2, cycle.1⟩⟩
    have founded : WellFounded Below := Finite.wellFounded_of_trans_of_irrefl Below
    have all : ∀ inner, Relation.ReflTransGen (Nests v) inner kind → ∃ q, Renders v inner q := by
      intro inner
      induction inner using founded.induction with
      | _ outer ih =>
        intro reaches
        obtain ⟨phrase, declared, own⟩ := sound outer reaches
        exact exists_renders_of_nests declared own fun inner nests =>
          ih inner ⟨.single nests, reaches⟩ (.head nests reaches)
    exact all kind .refl

/-! ## Compiling a kind -/

theorem repeatedKind?_eq_none {seen : List Kind} (distinct : (v.map (·.kind)).Nodup)
    (fresh : ∀ phrase ∈ v, phrase.kind ∉ seen) : repeatedKind? seen v = none := by
  induction v generalizing seen with
  | nil => rfl
  | cons phrase v ih =>
    obtain ⟨new, distinct⟩ := List.nodup_cons.1 distinct
    obtain ⟨unseen, fresh⟩ := List.forall_mem_cons.1 fresh
    rw [repeatedKind?, if_neg (by simpa using unseen)]
    refine ih distinct fun other mem => ?_
    have : other.kind ≠ phrase.kind := fun eq => new (List.mem_map.2 ⟨other, mem, eq⟩)
    simpa [this] using fresh other mem

/-- There is a compiler for every vocabulary that declares no kind twice. -/
theorem new_eq_ok (distinct : (v.map (·.kind)).Nodup) :
    Compiler.new v = .ok { vocabulary := v } := by
  rw [Compiler.new, repeatedKind?_eq_none distinct fun _ _ => List.not_mem_nil]

theorem eq_of_new {c : Compiler} (h : Compiler.new v = .ok c) :
    (v.map (·.kind)).Nodup ∧ c = { vocabulary := v } := by
  rw [Compiler.new] at h
  split at h
  · cases h
  · rename_i none
    exact ⟨(nodup_of_repeatedKind? none).1, (Except.ok.inj h).symm⟩

theorem find?_kind_eq_some (distinct : (v.map (·.kind)).Nodup) :
    v.find? (·.kind == kind) = some phrase ↔ phrase ∈ v ∧ phrase.kind = kind := by
  refine ⟨fun h => ⟨List.mem_of_find?_eq_some h, kind_of_find? h⟩, ?_⟩
  rintro ⟨mem, rfl⟩
  exact find?_key distinct mem

/-- A compiler gives a pattern exactly for the kinds that have one. -/
theorem compile_eq_ok {c : Compiler} (all : ∀ p ∈ c.rendered, Renders c.vocabulary p.kind p)
    (kind : Kind) : (c.compile kind).1 = .ok p ↔ Renders c.vocabulary kind p := by
  refine ⟨(renders_compile all kind).2.2 p, fun h => ?_⟩
  rw [compile_eq_outcome all, outcome_of_renders h (by simp [Descends])]

/-- In a vocabulary that declares no kind twice, compiling ends without a bound on the depth. It
gives a pattern exactly if every kind that is reached through nested fields is declared by a
sound phrase and none of them reaches itself. -/
theorem compile_isOk_iff (distinct : (v.map (·.kind)).Nodup) (kind : Kind) :
    ∃ c, Compiler.new v = .ok c ∧ (c.compile kind).1 = (compileFrom v [] kind).result ∧
      ((∃ p, (c.compile kind).1 = .ok p) ↔
        (∀ inner, Relation.ReflTransGen (Nests v) inner kind →
          ∃ phrase ∈ v, phrase.kind = inner ∧ phrase.IsSound) ∧
        ¬∃ inner, Relation.ReflTransGen (Nests v) inner kind ∧
          Relation.TransGen (Nests v) inner inner) := by
  refine ⟨_, new_eq_ok distinct, ?_, ?_⟩
  · rw [← compileWithin_eq_compileFrom (Nat.le_of_eq (unvisited_nil v))]
    rfl
  · have patterns := exists_congr fun p =>
      compile_eq_ok (c := { vocabulary := v }) (p := p) (by simp) kind
    rw [patterns, exists_renders_iff]
    simp only [find?_kind_eq_some distinct, and_assoc]

/-- Two phrases that are nested in each other. -/
def eachOther : Vocabulary :=
  [{ kind := .youMay, template := "you may {action}", fields := [.nested "action" .drawCards] },
    { kind := .drawCards, template := "draw a card or {choice}",
      fields := [.nested "choice" .youMay] }]

theorem compile_eachOther : (eachOther.map (·.kind)).Nodup ∧
    ∃ c, Compiler.new eachOther = .ok c ∧ ¬∃ p, (c.compile .youMay).1 = .ok p := by
  have distinct : (eachOther.map (·.kind)).Nodup := by decide
  obtain ⟨c, new, -, accepted⟩ := compile_isOk_iff distinct .youMay
  have action : Nests eachOther .drawCards .youMay :=
    ⟨_, rfl, .nested "action" .drawCards, List.mem_singleton.2 rfl, rfl⟩
  have choice : Nests eachOther .youMay .drawCards :=
    ⟨_, rfl, .nested "choice" .youMay, List.mem_singleton.2 rfl, rfl⟩
  have cycle : Relation.TransGen (Nests eachOther) .youMay .youMay := .tail (.single choice) action
  exact ⟨distinct, c, new, fun ok => (accepted.1 ok).2 ⟨.youMay, .refl, cycle⟩⟩

end Compiler

end RulesText
