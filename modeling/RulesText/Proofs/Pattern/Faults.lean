import RulesText.Proofs.Pattern.Outcome

/-!
# The faults of rendering

Rendering looks at templates, at declared fields and at nesting, but reads no pattern text. So a
compiler never finds a pattern to be no regular expression.

## Main definitions

* `Fault.IsOfPhrase`: a fault of a template or of its fields.
* `Fault.IsRendering`: a fault of a template, of its fields or of nesting.
* `CompileM.Faults`: what the faults of a computation are like.
* `Compiler.Fails`: how a kind comes to have a fault and no pattern.
-/

namespace RulesText

/-- A fault of a template, of its fields or of nesting. -/
def Fault.IsRendering : Fault → Prop
  | unknownField _ _ | unreferencedField _ _ | duplicateField _ _ | unbalancedQuotes _
  | undeclaredKind _ | cyclicNesting _ => True
  | _ => False

/-- A fault of a template or of its fields. -/
def Fault.IsOfPhrase : Fault → Prop
  | unknownField _ _ | unreferencedField _ _ | duplicateField _ _ | unbalancedQuotes _ => True
  | _ => False

theorem Fault.IsOfPhrase.isRendering {fault : Fault} (h : fault.IsOfPhrase) :
    fault.IsRendering := by
  cases fault with
  | unknownField | unreferencedField | duplicateField | unbalancedQuotes => trivial
  | _ => cases h

namespace CompileM

variable {α β : Type} {Q : Fault → Prop}

/-- Whatever patterns are kept, a fault of the computation has the property `Q`. -/
def Faults (x : CompileM α) (Q : Fault → Prop) : Prop :=
  ∀ kept fault, (x.run.run kept).1 = .error fault → Q fault

theorem Faults.pure (a : α) : Faults (pure a) Q :=
  fun _ _ eq => nomatch eq

theorem Faults.throw {fault : Fault} (h : Q fault) : Faults (throw fault : CompileM α) Q := by
  intro kept other eq
  obtain rfl := Except.error.inj eq
  exact h

theorem Faults.bind {x : CompileM α} {f : α → CompileM β} (hx : Faults x Q)
    (hf : ∀ a, Faults (f a) Q) : Faults (x >>= f) Q := by
  intro kept fault eq
  rw [run_bind] at eq
  have first := hx kept
  generalize x.run.run kept = result at eq first
  obtain ⟨other | a, kept⟩ := result
  · obtain rfl := Except.error.inj eq
    exact first other rfl
  · exact hf a kept fault eq

end CompileM

namespace Compiler

open CompileM (Faults)

variable {Q : Fault → Prop} {nested : Kind → CompileM Pattern} {phrase : Phrase} {v : Vocabulary}
  {path : List Kind} {kind : Kind} {fault : Fault}

theorem faults_liftExcept {α : Type} {x : Except Fault α}
    (h : ∀ fault, x = .error fault → Q fault) :
    Faults (render.liftExcept x) Q := by
  cases x with
  | ok a => exact .pure a
  | error fault => exact .throw (h fault rfl)

theorem isOfPhrase_of_checkFields {placeholders seen : List Text} {fields : List Field}
    (h : Rendering.checkFields kind placeholders seen fields = .error fault) :
    fault.IsOfPhrase := by
  induction fields generalizing seen with
  | nil => cases h
  | cons f fields ih =>
    rw [Rendering.checkFields] at h
    split at h
    · obtain rfl := Except.error.inj h
      trivial
    · split at h
      · obtain rfl := Except.error.inj h
        trivial
      · exact ih h

theorem isOfPhrase_of_assemble {snippets : List Snippet} {fields : List RenderedField}
    (h : Rendering.assemble kind snippets fields = .error fault) : fault.IsOfPhrase := by
  rw [Rendering.assemble] at h
  split at h
  · obtain rfl := Except.error.inj h
    trivial
  · cases h

theorem faults_renderField {f : Field}
    (inner : ∀ kind, f.kind = .nested kind → Faults (nested kind) Q) :
    Faults (renderField nested f) Q := by
  unfold renderField
  split
  · exact .pure _
  · exact .pure _
  · exact .pure _
  · rename_i kind eq
    exact (inner kind eq).bind fun _ => .pure _

section Nested

variable (own : ∀ fault : Fault, fault.IsOfPhrase → Q fault)
  (inner : ∀ f ∈ phrase.fields, ∀ kind, f.kind = .nested kind → Faults (nested kind) Q)
include own inner

theorem faults_renderFields (done : List RenderedField) (names : List Text) :
    Faults (renderFields nested phrase done names) Q := by
  induction names generalizing done with
  | nil => exact .pure done
  | cons name names ih =>
    rw [renderFields]
    split
    · exact .throw (own _ trivial)
    · rename_i f found
      split
      · exact .throw (own _ trivial)
      · exact (faults_renderField (inner f (List.mem_of_find?_eq_some found))).bind fun _ => ih _

/-- A fault of rendering is one of the phrase itself or of what is nested in it. -/
theorem faults_render : Faults (render nested phrase) Q :=
  (faults_liftExcept fun _ h => own _ (isOfPhrase_of_checkFields h)).bind fun _ =>
    (faults_renderFields own inner _ _).bind fun _ =>
      faults_liftExcept fun _ h => own _ (isOfPhrase_of_assemble h)

end Nested

/-! ## Where a fault is from -/

/-- The kind has the fault, where the kinds on the path are in progress: it is in progress itself,
it is not declared, its own phrase is at fault, or a phrase that is nested in it has the fault. -/
inductive Fails (v : Vocabulary) : (path : List Kind) → Kind → Fault → Prop
  | cyclic {path : List Kind} {kind : Kind} (old : kind ∈ path) :
    Fails v path kind (.cyclicNesting (path.dropWhile (· != kind) ++ [kind]))
  | undeclared {path : List Kind} {kind : Kind} (none : v.find? (·.kind == kind) = none) :
    Fails v path kind (.undeclaredKind kind)
  | own {path : List Kind} {kind : Kind} {fault : Fault} (ofPhrase : fault.IsOfPhrase) :
    Fails v path kind fault
  | nested {path : List Kind} {kind inner : Kind} {fault : Fault} (new : kind ∉ path)
    (nests : Nests v inner kind) (fails : Fails v (path ++ [kind]) inner fault) :
    Fails v path kind fault

theorem fails_of_outcome (h : outcome v path kind = .error fault) : Fails v path kind fault := by
  generalize count : unvisited v path = n
  induction n using Nat.strongRecOn generalizing path kind fault with
  | _ n ih =>
    rw [outcome_eq] at h
    split at h
    · rename_i old
      obtain rfl := Except.error.inj h
      exact .cyclic (by simpa using old)
    · rename_i new
      split at h
      · rename_i none
        obtain rfl := Except.error.inj h
        exact .undeclared none
      · rename_i phrase declared
        have less := unvisited_lt new declared
        refine faults_render (fun _ => .own) (fun f mem inner eq => ?_) [] fault h
        refine faults_liftExcept fun fault failed => ?_
        exact .nested (by simpa using new) ⟨phrase, declared, f, mem, eq⟩
          (ih _ (count ▸ less) failed rfl)

theorem Fails.isRendering (h : Fails v path kind fault) : fault.IsRendering := by
  induction h with
  | cyclic | undeclared => trivial
  | own ofPhrase => exact ofPhrase.isRendering
  | nested new nests fails ih => exact ih

/-- The outcome of a kind is a pattern or a fault of rendering. -/
theorem isRendering_of_outcome (h : outcome v path kind = .error fault) : fault.IsRendering :=
  (fails_of_outcome h).isRendering

end Compiler

end RulesText
