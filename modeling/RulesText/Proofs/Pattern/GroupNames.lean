import Mathlib.Data.List.Nodup
import RulesText.Proofs.Lexicon
import RulesText.Proofs.Pattern.Acceptance
import RulesText.Proofs.Regex.Search

/-!
# The names of groups

A group belongs to a field that is reached through nested phrases, and it is named by the fields on
the way to it, with two underscores between them. Names of fields may have underscores themselves,
so two ways can lead to one name. This takes a field whose name continues that of a nested
phrase beside it.

## Main definitions

* `Compiler.FieldPath`: the fields on the way from a kind to one of its groups.
* `Pattern.groupName`: the name of a group.
* `Phrase.KeepsApart`: no field continues the name of a nested phrase.
-/

namespace RulesText

namespace Pattern

/-- The name of the group that the given fields lead to. -/
def groupName (path : List Text) : Text :=
  Text.join qualifier path

@[simp] theorem groupName_singleton (name : Text) : groupName [name] = name := by
  rw [groupName, Text.join, List.intercalate_singleton]

theorem groupName_cons (name : Text) {path : List Text} (ne : path ≠ []) :
    groupName (name :: path) = qualified name (groupName path) := by
  obtain ⟨next, rest, rfl⟩ := List.exists_cons_of_ne_nil ne
  rw [groupName, Text.join, List.intercalate_cons_cons, qualified, groupName, Text.join]

/-- The name `longer` goes on where the name `name` ends, as the names of groups do: with two
underscores, or with the first of them at its very end. -/
def Continues (name longer : Text) : Prop :=
  name ++ qualifier <+: longer ∨ longer = name ++ ['_']

theorem qualifier_eq : qualifier = ['_', '_'] := rfl

instance (name longer : Text) : Decidable (Continues name longer) :=
  inferInstanceAs (Decidable (_ ∨ _))

variable {f g s t : Text}

/-- The name of a group inside a field is no other field's name, unless that continues the
field's. -/
theorem continues_of_eq_qualified (eq : g = qualified f s) : Continues f g := by
  subst eq
  exact .inl (List.prefix_append _ _)

theorem continues_append {z : Text} (ne : z ≠ [])
    (eq : qualifier ++ s = z ++ (qualifier ++ t)) : Continues f (f ++ z) := by
  rw [qualifier_eq] at eq
  match z with
  | [x] =>
    obtain ⟨rfl, -⟩ := List.cons.inj eq
    exact .inr rfl
  | x :: y :: z =>
    obtain ⟨rfl, rest⟩ := List.cons.inj eq
    obtain ⟨rfl, -⟩ := List.cons.inj rest
    exact .inl ⟨z, by simp [qualifier_eq]⟩

/-- Groups inside two fields have different names, unless one field's name continues the
other's. -/
theorem eq_or_continues (eq : qualified f s = qualified g t) :
    f = g ∨ Continues f g ∨ Continues g f := by
  rw [qualified, qualified, List.append_assoc, List.append_assoc] at eq
  rcases List.append_eq_append_iff.1 eq with ⟨z, rfl, rest⟩ | ⟨z, rfl, rest⟩
  · by_cases nil : z = []
    · exact .inl (by simp [nil])
    · exact .inr (.inl (continues_append nil rest))
  · by_cases nil : z = []
    · exact .inl (by simp [nil])
    · exact .inr (.inr (continues_append nil rest))

end Pattern

open Pattern (groupName qualified Continues)

/-- No field continues the name of a field that holds a nested phrase. -/
def Phrase.KeepsApart (phrase : Phrase) : Prop :=
  ∀ f ∈ phrase.fields, f.nestedKind?.isSome → ∀ g ∈ phrase.fields, ¬Continues f.name g.name

instance (phrase : Phrase) : Decidable phrase.KeepsApart :=
  inferInstanceAs (Decidable (∀ f ∈ phrase.fields, _))

namespace Compiler

variable {v : Vocabulary} {kind inner : Kind} {phrase : Phrase} {fields : List Field} {f : Field}
  {p : Pattern} {path a b : List Text}

/-- The names of fields that lead from a kind, through the phrases nested in it, to a field. -/
inductive FieldPath (v : Vocabulary) : Kind → List Text → Prop
  | own {kind : Kind} {phrase : Phrase} {f : Field}
    (declared : v.find? (·.kind == kind) = some phrase) (mem : f ∈ phrase.fields) :
    FieldPath v kind [f.name]
  | nested {kind inner : Kind} {phrase : Phrase} {f : Field} {path : List Text}
    (declared : v.find? (·.kind == kind) = some phrase) (mem : f ∈ phrase.fields)
    (eq : f.kind = .nested inner) (rest : FieldPath v inner path) :
    FieldPath v kind (f.name :: path)

theorem FieldPath.ne_nil (h : FieldPath v kind path) : path ≠ [] := by
  cases h with
  | own => exact List.cons_ne_nil _ _
  | nested => exact List.cons_ne_nil _ _

/-- The ways through the given fields, where `below` gives those on from each field. -/
def pathsOf (below : Field → List (List Text)) (fields : List Field) : List (List Text) :=
  (fields.map fun f => [f.name]) ++ fields.flatMap fun f => (below f).map (f.name :: ·)

theorem mem_pathsOf {below : Field → List (List Text)} : path ∈ pathsOf below fields ↔
    ∃ f ∈ fields, path = [f.name] ∨ ∃ rest ∈ below f, path = f.name :: rest := by
  simp only [pathsOf, List.mem_append, List.mem_map, List.mem_flatMap]
  grind

/-- Ways through fields with different names are different. -/
theorem nodup_pathsOf {below : Field → List (List Text)} (distinct : (fields.map (·.name)).Nodup)
    (nodup : ∀ f ∈ fields, (below f).Nodup) (ne : ∀ f ∈ fields, [] ∉ below f) :
    (pathsOf below fields).Nodup := by
  refine List.nodup_append.2 ⟨?_, List.nodup_flatMap.2 ⟨fun f mem => ?_, ?_⟩, ?_⟩
  · have singles : (fields.map fun f => [f.name]) = (fields.map (·.name)).map ([·]) := by simp
    rw [singles]
    exact distinct.map fun _ _ eq => List.cons.inj eq |>.1
  · exact (nodup f mem).map fun _ _ eq => List.cons.inj eq |>.2
  · refine (List.pairwise_map.1 distinct).imp fun {f g} other path hf hg => ?_
    obtain ⟨_, -, rfl⟩ := List.mem_map.1 hf
    obtain ⟨_, -, eq⟩ := List.mem_map.1 hg
    exact other (List.cons.inj eq).1.symm
  · intro a ha b hb eq
    obtain ⟨f, -, rfl⟩ := List.mem_map.1 ha
    obtain ⟨g, mem, hb⟩ := List.mem_flatMap.1 hb
    obtain ⟨rest, mem', rfl⟩ := List.mem_map.1 hb
    obtain ⟨-, rfl⟩ := List.cons.inj eq
    exact ne g mem mem'

/-- If the groups of the nested phrases are the ways from them to fields, the groups of a field are
the ways on from it. There is none from a field without a nested phrase. -/
theorem exists_below {nested : Kind → Pattern}
    (inner : ∀ other, f.kind = .nested other → ∃ paths : List (List Text), paths.Nodup ∧
      (∀ path, path ∈ paths ↔ FieldPath v other path) ∧
      (nested other).groups = paths.map groupName) :
    ∃ paths : List (List Text), paths.Nodup ∧
      (∀ path, path ∈ paths ↔ ∃ other, f.kind = .nested other ∧ FieldPath v other path) ∧
      (renderedField nested f).groups = (paths.map (f.name :: ·)).map groupName := by
  unfold renderedField
  cases eq : f.kind with
  | nested other =>
    obtain ⟨paths, nodup, all, listed⟩ := inner other eq
    have qualify : ∀ path ∈ paths, qualified f.name (groupName path) =
        groupName (f.name :: path) := by
      intro path mem
      exact (Pattern.groupName_cons f.name ((all path).1 mem).ne_nil).symm
    refine ⟨paths, nodup, by simpa using all, ?_⟩
    change (nested other).groups.map (qualified f.name) = _
    rw [listed, List.map_map, List.map_map]
    exact List.map_congr_left qualify
  | _ => exact ⟨[], .nil, by simp, rfl⟩

/-- A pattern lists one group for each way from its kind to a field. -/
theorem Renders.exists_paths (h : Renders v kind p) : ∃ paths : List (List Text), paths.Nodup ∧
    (∀ path, path ∈ paths ↔ FieldPath v kind path) ∧ p.groups = paths.map groupName := by
  induction h with
  | @intro kind phrase fields nested p declared placed inner assembled ih =>
    have each : ∀ f, ∃ paths : List (List Text), f ∈ fields → paths.Nodup ∧
        (∀ path, path ∈ paths ↔ ∃ inner, f.kind = .nested inner ∧ FieldPath v inner path) ∧
        (renderedField nested f).groups = (paths.map (f.name :: ·)).map groupName := by
      intro f
      by_cases mem : f ∈ fields
      · obtain ⟨paths, spec⟩ := exists_below fun other eq => ih f mem other eq
        exact ⟨paths, fun _ => spec⟩
      · exact ⟨[], fun mem' => absurd mem' mem⟩
    choose below spec using each
    have ne : ∀ f ∈ fields, [] ∉ below f := fun f mem nil =>
      let ⟨_, _, path⟩ := ((spec f mem).2.1 []).1 nil
      path.ne_nil rfl
    refine ⟨pathsOf below fields, ?_, fun path => ?_, ?_⟩
    · exact nodup_pathsOf (placed.map_name ▸ placed.distinct) (fun f mem => (spec f mem).1) ne
    · rw [mem_pathsOf]
      constructor
      · rintro ⟨f, mem, rfl | ⟨rest, below, rfl⟩⟩
        · exact .own declared (placed.declares mem)
        · obtain ⟨inner, eq, path⟩ := ((spec f mem).2.1 rest).1 below
          exact .nested declared (placed.declares mem) eq path
      · intro path
        cases path with
        | own declared' mem =>
          obtain rfl := Option.some.inj (declared.symm.trans declared')
          exact ⟨_, placed.mem_fields mem, .inl rfl⟩
        | @nested _ inner _ f rest declared' mem eq path =>
          obtain rfl := Option.some.inj (declared.symm.trans declared')
          have mem := placed.mem_fields mem
          exact ⟨f, mem, .inr ⟨rest, ((spec f mem).2.1 rest).2 ⟨inner, eq, path⟩, rfl⟩⟩
    · rw [Rendering.assemble] at assembled
      split at assembled
      · cases assembled
      · obtain rfl := Except.ok.inj assembled
        have names : (fields.map (renderedField nested)).map (·.name) =
            (fields.map fun f => [f.name]).map groupName := by simp
        have groups : (fields.map (renderedField nested)).flatMap (·.groups) =
            (fields.flatMap fun f => (below f).map (f.name :: ·)).map groupName := by
          rw [List.flatMap_map, List.map_flatMap]
          exact List.flatMap_congr fun f mem => (spec f mem).2.2
        rw [names, groups, pathsOf, List.map_append]

theorem isSome_nestedKind? (eq : f.kind = .nested inner) : f.nestedKind?.isSome := by
  rw [Field.nestedKind?, eq]
  rfl

/-- Where names are kept apart, the name of a group tells the way to it. -/
theorem FieldPath.eq_of_groupName (ha : FieldPath v kind a) (hb : FieldPath v kind b)
    (apart : ∀ inner, Relation.ReflTransGen (Nests v) inner kind →
      ∀ phrase, v.find? (·.kind == inner) = some phrase →
        (phrase.fields.map (·.name)).Nodup ∧ phrase.KeepsApart)
    (same : groupName a = groupName b) : a = b := by
  induction ha generalizing b with
  | @own kind phrase f declared mem =>
    have keeps := (apart kind .refl phrase declared).2
    cases hb with
    | own => simpa using same
    | @nested _ inner _ g _ declared' mem' eq rest =>
      obtain rfl := Option.some.inj (declared.symm.trans declared')
      rw [Pattern.groupName_singleton, Pattern.groupName_cons _ rest.ne_nil] at same
      exact absurd (Pattern.continues_of_eq_qualified same)
        (keeps g mem' (isSome_nestedKind? eq) f mem)
  | @nested kind inner phrase f path declared mem eq rest ih =>
    obtain ⟨distinct, keeps⟩ := apart kind .refl phrase declared
    cases hb with
    | @own _ _ g declared' mem' =>
      obtain rfl := Option.some.inj (declared.symm.trans declared')
      rw [Pattern.groupName_singleton, Pattern.groupName_cons _ rest.ne_nil] at same
      exact absurd (Pattern.continues_of_eq_qualified same.symm)
        (keeps f mem (isSome_nestedKind? eq) g mem')
    | @nested _ other _ g path' declared' mem' eq' rest' =>
      obtain rfl := Option.some.inj (declared.symm.trans declared')
      rw [Pattern.groupName_cons _ rest.ne_nil, Pattern.groupName_cons _ rest'.ne_nil] at same
      rcases Pattern.eq_or_continues same with name | longer | longer
      · -- The ways begin with one field, so they go on from the same nested phrase.
        obtain rfl := List.inj_on_of_nodup_map distinct mem mem' name
        obtain rfl := FieldKind.nested.inj (eq.symm.trans eq')
        have below : Nests v inner kind := ⟨phrase, declared, f, mem, eq⟩
        rw [ih rest' (fun deeper reaches => apart deeper (reaches.tail below))
          (List.append_cancel_left same)]
      · exact absurd longer (keeps f mem (isSome_nestedKind? eq) g mem')
      · exact absurd longer (keeps g mem' (isSome_nestedKind? eq') f mem)

/-- The groups of a pattern have different names exactly if different ways to a field never give
the same name. They do so where no field continues the name of a nested phrase beside it. -/
theorem nodup_groups_iff {c : Compiler} (new : Compiler.new v = .ok c)
    (compiled : (c.compile kind).1 = .ok p) :
    (p.groups.Nodup ↔ ∀ a b, FieldPath v kind a → FieldPath v kind b →
      groupName a = groupName b → a = b) ∧
    ((∀ inner, Relation.ReflTransGen (Nests v) inner kind →
      ∀ phrase ∈ v, phrase.kind = inner → phrase.KeepsApart) → p.groups.Nodup) := by
  obtain ⟨distinct, rfl⟩ := eq_of_new new
  have renders : Renders v kind p := (compile_eq_ok (by simp) kind).1 compiled
  obtain ⟨paths, nodup, mem, listed⟩ := renders.exists_paths
  have names : p.groups.Nodup ↔ ∀ a b, FieldPath v kind a → FieldPath v kind b →
      groupName a = groupName b → a = b := by
    rw [listed, List.nodup_map_iff_inj_on nodup]
    simp only [mem]
    exact ⟨fun h a b ha hb => h a ha b hb, fun h a ha b hb => h a b ha hb⟩
  refine ⟨names, fun apart => names.2 fun a b ha hb => ha.eq_of_groupName hb ?_⟩
  intro inner reaches phrase declared
  obtain ⟨q, rendered⟩ := renders.of_reaches reaches
  obtain ⟨other, declared', sound⟩ := rendered.isSound
  obtain rfl := Option.some.inj (declared.symm.trans declared')
  obtain ⟨member, eq⟩ := (find?_kind_eq_some distinct).1 declared
  exact ⟨sound.fields_distinct, apart inner reaches phrase member eq⟩

/-- A field of the given name behind a nested phrase with the group `filter__color`. -/
def behindFilter (name : Text) : Vocabulary := [
  { kind := .colorFilter
    template := "{color}"
    fields := [.words "color" ["red", "blue"]] },
  { kind := .objectRef
    template := "{filter} " ++ (Part.field name).source
    fields := [.nested "filter" .colorFilter, .words name ["creature"]] }]

theorem nodup_groups_behindFilter : ∃ c p, Compiler.new (behindFilter "filter_type") = .ok c ∧
    (c.compile .objectRef).1 = .ok p ∧
    (∀ phrase ∈ behindFilter "filter_type", phrase.KeepsApart) ∧ p.groups.Nodup := by
  have apart : ∀ phrase ∈ behindFilter "filter_type", phrase.KeepsApart := by decide +kernel
  have compiles : ((Compiler.new (behindFilter "filter_type")).bind fun c =>
      (c.compile .objectRef).1).toOption.isSome := by
    decide +kernel
  obtain ⟨p, ok⟩ := Option.isSome_iff_exists.1 compiles
  obtain ⟨c, new, compiled⟩ := bind_eq_ok.1 (Regex.Searcher.toOption_eq_some_iff.1 ok)
  exact ⟨c, p, new, compiled, apart,
    (nodup_groups_iff new compiled).2 fun _ _ phrase mem _ => apart phrase mem⟩

/-- A field may be declared with the name of a group inside a nested phrase. The pattern is
rendered with two groups of that name, and it is no regular expression. -/
theorem groups_behindFilter_clash : ∃ c p, Compiler.new (behindFilter "filter__color") = .ok c ∧
    (c.compile .objectRef).1 = .ok p ∧ ¬p.groups.Nodup ∧
    Lexicon.build (behindFilter "filter__color") = .error (.invalidPattern .objectRef) := by
  have compiles : ((Compiler.new (behindFilter "filter__color")).bind fun c =>
      (c.compile .objectRef).1).toOption.any fun p => decide (¬p.groups.Nodup) := by
    decide +kernel
  have rejected : (match Lexicon.build (behindFilter "filter__color") with
      | .ok _ => none
      | .error fault => some fault) = some (.invalidPattern .objectRef) := by
    decide +kernel
  obtain ⟨p, ok, clash⟩ := (Option.any_eq_true _ _).1 compiles
  obtain ⟨c, new, compiled⟩ := bind_eq_ok.1 (Regex.Searcher.toOption_eq_some_iff.1 ok)
  refine ⟨c, p, new, compiled, of_decide_eq_true clash, ?_⟩
  cases built : Lexicon.build (behindFilter "filter__color") with
  | ok l =>
    rw [built] at rejected
    cases rejected
  | error fault =>
    rw [built] at rejected
    rw [Option.some.inj rejected]

end Compiler

end RulesText
