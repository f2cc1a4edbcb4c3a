import RulesText.Proofs.Pattern.Compiled

/-!
# Compiling without a memory and without a bound

The patterns that a compiler keeps spare it work, but do not change what it gives: the result of
a kind is a function of the vocabulary and of the kinds in progress. Nor does the depth that a
compiler starts with: every nested phrase puts one more declared kind on the path, so the
recursion ends by itself.

## Main definitions

* `Compiler.unvisited`: how many declared phrases are not in progress.
* `Compiler.compileFrom`: compiling by the recursion over nested phrases alone.
* `Compiler.outcome`: the same without the memory.
* `CompileM.Agrees`: two computations with the same result.
-/

namespace RulesText

namespace Compiler

variable {v w : Vocabulary} {path : List Kind} {kind : Kind} {phrase : Phrase} {p : Pattern}

/-! ## The recursion -/

/-- How many declared phrases are not in progress. -/
def unvisited (v : Vocabulary) (path : List Kind) : Nat :=
  (v.filter fun phrase => !path.contains phrase.kind).length

theorem unvisited_lt (new : ¬path.contains kind = true)
    (declared : v.find? (·.kind == kind) = some phrase) :
    unvisited v (path ++ [kind]) < unvisited v path := by
  have split : v.filter (fun phrase => !(path ++ [kind]).contains phrase.kind) =
      (v.filter fun phrase => !path.contains phrase.kind).filter (·.kind != kind) := by
    rw [List.filter_filter]
    congr 1
    funext other
    simp [bne, beq_eq_decide, Bool.and_comm]
  rw [unvisited, unvisited, split, List.length_filter_lt_length_iff_exists]
  refine ⟨phrase, List.mem_filter.2 ⟨List.mem_of_find?_eq_some declared, ?_⟩, ?_⟩
  · simpa [kind_of_find? declared] using new
  · simp [kind_of_find? declared]

theorem unvisited_nil (v : Vocabulary) : unvisited v [] = v.length := by
  simp [unvisited]

/-- The pattern of a kind, where the kinds on `path` are in progress. -/
def compileFrom (v : Vocabulary) (path : List Kind) (kind : Kind) : CompileM Pattern := do
  match (← get).find? (·.kind == kind) with
  | some p => return p
  | none =>
    if _new : path.contains kind then
      throw (.cyclicNesting (path.dropWhile (· != kind) ++ [kind]))
    else
      match _declared : v.find? (·.kind == kind) with
      | none => throw (.undeclaredKind kind)
      | some phrase =>
        let p ← render (fun other => compileFrom v (path ++ [kind]) other) phrase
        modify (· ++ [p])
        return p
termination_by unvisited v path
decreasing_by exact unvisited_lt _new _declared

theorem compileFrom_eq (v : Vocabulary) (path : List Kind) (kind : Kind) :
    compileFrom v path kind = (do
      match (← get).find? (·.kind == kind) with
      | some p => pure p
      | none =>
        if path.contains kind then
          throw (.cyclicNesting (path.dropWhile (· != kind) ++ [kind]))
        else
          match v.find? (·.kind == kind) with
          | none => throw (.undeclaredKind kind)
          | some phrase => do
            let p ← render (compileFrom v (path ++ [kind])) phrase
            modify (· ++ [p])
            pure p) := by
  rw [compileFrom]
  refine bind_congr fun kept => ?_
  cases kept.find? (·.kind == kind) with
  | some p => rfl
  | none =>
    cases path.contains kind with
    | true => rfl
    | false => cases v.find? (·.kind == kind) <;> rfl

/-- The depth of the recursion never decides anything. -/
theorem compileWithin_eq_compileFrom {depth : Nat} (enough : unvisited v path ≤ depth)
    (kind : Kind) : compileWithin v depth path kind = compileFrom v path kind := by
  induction depth generalizing path kind with
  | zero =>
    rw [compileWithin_eq, compileFrom_eq]
    refine bind_congr fun kept => ?_
    have undeclared (new : ¬path.contains kind = true) : v.find? (·.kind == kind) = none := by
      by_contra some
      obtain ⟨phrase, declared⟩ := Option.ne_none_iff_exists'.1 some
      exact absurd (unvisited_lt new declared) (by omega)
    cases kept.find? (·.kind == kind) with
    | some p => rfl
    | none =>
      by_cases new : path.contains kind = true
      · simp only [new, if_true]
      · simp only [new, undeclared new]
  | succ depth ih =>
    rw [compileWithin_eq, compileFrom_eq]
    refine bind_congr fun kept => ?_
    cases kept.find? (·.kind == kind) with
    | some p => rfl
    | none =>
      by_cases new : path.contains kind = true
      · simp only [new, if_true]
      · cases declared : v.find? (·.kind == kind) with
        | none => rfl
        | some phrase =>
          have less := unvisited_lt new declared
          have inner : compileWithin v depth (path ++ [kind]) = compileFrom v (path ++ [kind]) :=
            funext (ih (by omega))
          simp only [inner]

end Compiler

/-! ## Results without the memory -/

namespace CompileM

variable {α β : Type} {I : Pattern → Prop} {P : α → Prop}

/-- The result of a computation for which no patterns are kept. -/
def result (x : CompileM α) : Except Fault α :=
  (x.run.run []).1

/-- From patterns with the property `I`, the first computation keeps such patterns only and has
the result that the second one has from any. -/
def Agrees (I : Pattern → Prop) (x y : CompileM α) : Prop :=
  ∀ kept, (∀ p ∈ kept, I p) →
    (∀ p ∈ (x.run.run kept).2, I p) ∧ ∀ others, (x.run.run kept).1 = (y.run.run others).1

theorem Agrees.pure (a : α) : Agrees I (pure a) (pure a) :=
  fun _ all => ⟨all, fun _ => rfl⟩

theorem Agrees.throw (fault : Fault) : Agrees I (throw fault : CompileM α) (throw fault) :=
  fun _ all => ⟨all, fun _ => rfl⟩

theorem Agrees.bind {x y : CompileM α} {f g : α → CompileM β} (hx : Agrees I x y)
    (hf : ∀ a, Agrees I (f a) (g a)) : Agrees I (x >>= f) (y >>= g) := by
  intro kept all
  obtain ⟨all, same⟩ := hx kept all
  simp only [run_bind]
  generalize x.run.run kept = left at all same ⊢
  obtain ⟨result, kept⟩ := left
  cases result with
  | error fault =>
    refine ⟨all, fun others => ?_⟩
    have := same others
    generalize y.run.run others = right at this ⊢
    obtain ⟨_, others⟩ := right
    subst this
    rfl
  | ok a =>
    refine ⟨(hf a kept all).1, fun others => ?_⟩
    have := same others
    generalize y.run.run others = right at this ⊢
    obtain ⟨_, others⟩ := right
    subst this
    exact (hf a kept all).2 others

theorem Agrees.of_get {f : List Pattern → CompileM α} {y : CompileM α}
    (h : ∀ kept, (∀ p ∈ kept, I p) → Agrees I (f kept) y) : Agrees I (get >>= f) y :=
  fun kept all => h kept all kept all

/-- A result can be kept, if it has the property of those that are. -/
theorem Agrees.keep {x y : CompileM Pattern} (h : Agrees I x y) (result : Yields I x I) :
    Agrees I (do let p ← x; modify (· ++ [p]); return p) y := by
  intro kept all
  obtain ⟨all, same⟩ := h kept all
  have property := (result kept ‹_›).2
  simp only [run_bind]
  generalize x.run.run kept = left at all same property ⊢
  obtain ⟨_ | p, kept⟩ := left
  · exact ⟨all, same⟩
  · refine ⟨fun q mem => ?_, same⟩
    rcases List.mem_append.1 mem with mem | mem
    · exact all q mem
    · exact List.mem_singleton.1 mem ▸ property p rfl

end CompileM

namespace Compiler

open CompileM (Agrees)

variable {nested other : Kind → CompileM Pattern} {I : Pattern → Prop}

theorem agrees_liftExcept {α : Type} (x : Except Fault α) :
    Agrees I (render.liftExcept x) (render.liftExcept x) := by
  cases x with
  | ok a => exact .pure a
  | error fault => exact .throw fault

theorem agrees_renderField {f : Field}
    (inner : ∀ kind, f.kind = .nested kind → Agrees I (nested kind) (other kind)) :
    Agrees I (renderField nested f) (renderField other f) := by
  unfold renderField
  split
  · exact .pure _
  · exact .pure _
  · exact .pure _
  · rename_i kind eq
    exact (inner kind eq).bind fun _ => .pure _

variable {phrase : Phrase}
  (inner : ∀ f ∈ phrase.fields, ∀ kind, f.kind = .nested kind → Agrees I (nested kind) (other kind))
include inner

theorem agrees_renderFields (done : List RenderedField) (names : List Text) :
    Agrees I (renderFields nested phrase done names) (renderFields other phrase done names) := by
  induction names generalizing done with
  | nil => exact .pure done
  | cons name names ih =>
    rw [renderFields, renderFields]
    split
    · exact .throw _
    · rename_i f found
      split
      · exact .throw _
      · exact (agrees_renderField (inner f (List.mem_of_find?_eq_some found))).bind fun r => ih _

/-- A phrase is rendered in the same way from nested patterns that agree. -/
theorem agrees_render : Agrees I (render nested phrase) (render other phrase) :=
  (agrees_liftExcept _).bind fun _ =>
    (agrees_renderFields inner _ _).bind fun _ => agrees_liftExcept _

omit inner

theorem agrees_result {α : Type} {x y : CompileM α} (h : Agrees I x y) :
    Agrees I x (render.liftExcept y.result) := by
  intro kept all
  refine ⟨(h kept all).1, fun others => ?_⟩
  rw [(h kept all).2 [], ← CompileM.result]
  cases y.result <;> rfl

/-! ## The outcome of a phrase -/

/-- The pattern of a phrase, where `nested` gives the results of other kinds. -/
def renderFrom (nested : Kind → Except Fault Pattern) (phrase : Phrase) : Except Fault Pattern :=
  (render (fun kind => render.liftExcept (nested kind)) phrase).result

theorem result_liftExcept {α : Type} (x : Except Fault α) : (render.liftExcept x).result = x := by
  cases x <;> rfl

theorem Placed.declares {phrase : Phrase} {fields : List Field} (h : Placed phrase fields)
    {f : Field} (mem : f ∈ fields) : f ∈ phrase.fields := by
  have found : some f ∈ phrase.placeholders.map phrase.field? := h.found ▸ List.mem_map_of_mem mem
  obtain ⟨name, -, found⟩ := List.mem_map.1 found
  exact List.mem_of_find?_eq_some found

section Complete

variable {results : Kind → Except Fault Pattern} {patterns : Kind → Pattern}

theorem renderField_of_results {f : Field}
    (h : ∀ kind, f.kind = .nested kind → results kind = .ok (patterns kind)) :
    renderField (fun kind => render.liftExcept (results kind)) f =
      pure (renderedField patterns f) := by
  unfold renderField renderedField
  cases eq : f.kind with
  | choice family => rfl
  | flag alternatives => rfl
  | words alternatives => rfl
  | nested kind =>
    simp only [h kind eq]
    rfl

theorem renderFields_of_results {phrase : Phrase} {names : List Text} {fields : List Field}
    (done : List RenderedField) (found : names.map phrase.field? = fields.map some)
    (distinct : names.Nodup) (fresh : ∀ name ∈ names, name ∉ done.map (·.name))
    (h : ∀ f ∈ fields, ∀ kind, f.kind = .nested kind → results kind = .ok (patterns kind)) :
    renderFields (fun kind => render.liftExcept (results kind)) phrase done names =
      pure (done ++ fields.map (renderedField patterns)) := by
  induction names generalizing fields done with
  | nil =>
    obtain rfl : fields = [] := by simpa using found.symm
    rw [List.map_nil, List.append_nil]
    rfl
  | cons name names ih =>
    cases fields with
    | nil => simp at found
    | cons f fields =>
      obtain ⟨first, rest⟩ := List.cons.inj found
      obtain ⟨new, distinct⟩ := List.nodup_cons.1 distinct
      obtain ⟨fresh, later⟩ := List.forall_mem_cons.1 fresh
      obtain ⟨own, h⟩ := List.forall_mem_cons.1 h
      have unused : ¬(done.any (·.name == name)) = true := by simpa using fresh
      rw [renderFields, first]
      dsimp only
      rw [if_neg unused, renderField_of_results own, pure_bind, ih _ rest distinct ?_ h,
        List.append_assoc, List.singleton_append, List.map_cons]
      intro other mem
      rw [List.map_append, List.mem_append, not_or]
      refine ⟨later other mem, ?_⟩
      rintro eq
      obtain rfl : other = name := by simpa [name_of_field? first] using eq
      exact new mem

end Complete

/-- A phrase has a pattern exactly if it has a field for every placeholder, each nested kind has
a pattern, and they can be assembled. -/
theorem renderFrom_eq_ok {results : Kind → Except Fault Pattern} {phrase : Phrase} {p : Pattern} :
    renderFrom results phrase = .ok p ↔ ∃ fields patterns, Placed phrase fields ∧
      (∀ f ∈ fields, ∀ kind, f.kind = .nested kind → results kind = .ok (patterns kind)) ∧
      Rendering.assemble phrase.kind (Template.parse phrase.template)
        (fields.map (renderedField patterns)) = .ok p := by
  constructor
  · intro h
    have inner (kind : Kind) : CompileM.Yields (fun _ => True)
        (render.liftExcept (results kind)) fun p => results kind = .ok p := yields_liftExcept _
    have unique : ∀ kind p q, results kind = .ok p → results kind = .ok q → p = q :=
      fun kind p q hp hq => Except.ok.inj (hp.symm.trans hq)
    exact (yields_assemble unique inner phrase [] (by simp)).2 p h
  · rintro ⟨fields, patterns, placed, h, assembled⟩
    have checked := placed.checked
    rw [Phrase.placeholders] at checked
    have rendered := renderFields_of_results [] placed.found placed.distinct (by simp) h
    rw [Phrase.placeholders] at rendered
    rw [renderFrom, render, checked, rendered, List.nil_append]
    simp only [render.liftExcept, pure_bind, assembled]
    rfl

/-- The pattern of a kind or its first fault, where the kinds on `path` are in progress. -/
def outcome (v : Vocabulary) (path : List Kind) (kind : Kind) : Except Fault Pattern :=
  if _new : path.contains kind then
    .error (.cyclicNesting (path.dropWhile (· != kind) ++ [kind]))
  else
    match _declared : v.find? (·.kind == kind) with
    | none => .error (.undeclaredKind kind)
    | some phrase => renderFrom (fun other => outcome v (path ++ [kind]) other) phrase
termination_by unvisited v path
decreasing_by exact unvisited_lt _new _declared

theorem outcome_eq (v : Vocabulary) (path : List Kind) (kind : Kind) :
    outcome v path kind =
      if path.contains kind then .error (.cyclicNesting (path.dropWhile (· != kind) ++ [kind]))
      else match v.find? (·.kind == kind) with
        | none => .error (.undeclaredKind kind)
        | some phrase => renderFrom (outcome v (path ++ [kind])) phrase := by
  rw [outcome]
  cases path.contains kind with
  | true => rfl
  | false => cases v.find? (·.kind == kind) <;> rfl

/-- The kinds in progress come down to the kind that is next. -/
def Descends (v : Vocabulary) (path : List Kind) (kind : Kind) : Prop :=
  ∀ outer ∈ path, Relation.TransGen (Nests v) kind outer

theorem Descends.step {inner : Kind} (h : Descends v path kind) (nests : Nests v inner kind) :
    Descends v (path ++ [kind]) inner := by
  intro outer mem
  rcases List.mem_append.1 mem with mem | mem
  · exact .trans (.single nests) (h outer mem)
  · exact List.mem_singleton.1 mem ▸ .single nests

theorem Renders.not_contains {path : List Kind} (h : Renders v kind p)
    (descends : Descends v path kind) : ¬path.contains kind = true :=
  fun mem => h.not_nests_self (descends kind (by simpa using mem))

theorem nests_of_placed (declared : v.find? (·.kind == kind) = some phrase) {fields : List Field}
    (placed : Placed phrase fields) {f : Field} (mem : f ∈ fields) {inner : Kind}
    (eq : f.kind = .nested inner) : Nests v inner kind :=
  ⟨phrase, declared, f, placed.declares mem, eq⟩

/-- The pattern of a kind is its outcome. -/
theorem outcome_of_renders (h : Renders v kind p) (descends : Descends v path kind) :
    outcome v path kind = .ok p := by
  have new := h.not_contains descends
  induction h generalizing path with
  | intro declared placed inner assembled ih =>
    rw [outcome_eq, if_neg new, declared]
    refine renderFrom_eq_ok.2 ⟨_, _, placed, fun f mem other eq => ?_, assembled⟩
    have descends := descends.step (nests_of_placed declared placed mem eq)
    exact ih f mem other eq descends ((inner f mem other eq).not_contains descends)

theorem yields_compileFrom (v : Vocabulary) (path : List Kind) (kind : Kind) :
    CompileM.Yields (fun p => Renders v p.kind p) (compileFrom v path kind) (Renders v kind) :=
  compileWithin_eq_compileFrom (Nat.le_refl _) kind ▸ yields_compileWithin v _ path kind

/-- With its memory or without, a compiler has the same results. -/
theorem agrees_compileFrom (descends : Descends v path kind) :
    Agrees (fun p => Renders v p.kind p) (compileFrom v path kind)
      (render.liftExcept (outcome v path kind)) := by
  generalize count : unvisited v path = n
  induction n using Nat.strongRecOn generalizing path kind with
  | _ n ih =>
    rw [compileFrom_eq]
    refine .of_get fun kept all => ?_
    split
    · rename_i p found
      rw [outcome_of_renders (renders_of_find? all found) descends]
      exact .pure p
    · rw [outcome_eq]
      split
      · exact .throw _
      · rename_i new
        split
        · exact .throw _
        · rename_i phrase declared
          -- Only nested phrases are rendered, and with them the path goes on to descend.
          have inner : ∀ f ∈ phrase.fields, ∀ other, f.kind = .nested other →
              Agrees (fun p => Renders v p.kind p) (compileFrom v (path ++ [kind]) other)
                (render.liftExcept (outcome v (path ++ [kind]) other)) := fun f mem other eq =>
            ih _ (count ▸ unvisited_lt new declared)
              (descends.step ⟨phrase, declared, f, mem, eq⟩) rfl
          refine (agrees_result (agrees_render inner)).keep ?_
          refine (yields_render declared fun other => yields_compileFrom v _ other).imp ?_
          exact fun p rendered => rendered.kind_eq ▸ rendered

/-- Whatever a compiler has kept of its vocabulary, the result of a kind is the same. -/
theorem compile_eq_outcome {c : Compiler} (all : ∀ p ∈ c.rendered, Renders c.vocabulary p.kind p)
    (kind : Kind) : (c.compile kind).1 = outcome c.vocabulary [] kind := by
  have agrees : Agrees (fun p => Renders c.vocabulary p.kind p)
      (compileFrom c.vocabulary [] kind) (render.liftExcept (outcome c.vocabulary [] kind)) :=
    agrees_compileFrom (by simp [Descends])
  rw [← compileWithin_eq_compileFrom (Nat.le_of_eq (unvisited_nil _))] at agrees
  exact ((agrees c.rendered all).2 []).trans (result_liftExcept _)

end Compiler

end RulesText
