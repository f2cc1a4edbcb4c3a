import RulesText.Pattern.Rendering

/-!
# Compiling a vocabulary

A compiler renders the patterns of a vocabulary on demand. It keeps every pattern it has
rendered, because a phrase can be nested in many others; the kinds in progress tell a cycle of
nested phrases from a phrase that is used twice.

## Main definitions

* `Compiler.new`: a compiler for a vocabulary in which no kind is declared twice.
* `Compiler.compile`: the pattern of a kind, or the first fault on the way to it.
-/

namespace RulesText

/-- A computation that can fail, over the patterns rendered so far. Patterns stay also when a
later step fails. -/
abbrev CompileM := ExceptT Fault (StateM (List Pattern))

structure Compiler where
  vocabulary : Vocabulary
  rendered : List Pattern := []

namespace Compiler

/-- Render one field. `nested` gives the patterns of other kinds. -/
def renderField (nested : Kind → CompileM Pattern) (f : Field) : CompileM RenderedField :=
  match f.kind with
  | .choice family => return .ofAlternatives f family.sources
  | .flag alternatives | .words alternatives => return .ofAlternatives f alternatives
  | .nested kind => return .ofNested f (← nested kind)

/-- Render the fields that the placeholders stand for, in order. -/
def renderFields (nested : Kind → CompileM Pattern) (phrase : Phrase) :
    (done : List RenderedField) → (placeholders : List Text) → CompileM (List RenderedField)
  | done, [] => return done
  | done, name :: rest =>
    match phrase.field? name with
    | none => throw (.unknownField phrase.kind name)
    | some f =>
      if done.any (·.name == name) then throw (.duplicateField phrase.kind name)
      else do
        let r ← renderField nested f
        renderFields nested phrase (done ++ [r]) rest

def render (nested : Kind → CompileM Pattern) (phrase : Phrase) : CompileM Pattern := do
  let snippets := Template.parse phrase.template
  let placeholders := Template.placeholders snippets
  liftExcept (Rendering.checkFields phrase.kind placeholders [] phrase.fields)
  let fields ← renderFields nested phrase [] placeholders
  liftExcept (Rendering.assemble phrase.kind snippets fields)
where
  liftExcept {α : Type} : Except Fault α → CompileM α
    | .ok a => return a
    | .error e => throw e

/-- The pattern of a kind, where the kinds on `path` are in progress and at most `depth` declared
kinds are not. Each nested phrase takes one of these away, so there are none left only when every
declared kind is on the path. -/
def compileWithin (v : Vocabulary) : (depth : Nat) → (path : List Kind) → Kind → CompileM Pattern
  | depth, path, kind => do
    match (← get).find? (·.kind == kind) with
    | some p => return p
    | none =>
      if path.contains kind then
        throw (.cyclicNesting (path.dropWhile (· != kind) ++ [kind]))
      match depth, v.find? (·.kind == kind) with
      | depth + 1, some phrase =>
        let p ← render (compileWithin v depth (path ++ [kind])) phrase
        modify (· ++ [p])
        return p
      | _, _ => throw (.undeclaredKind kind)

/-- The first kind that is declared a second time. -/
def repeatedKind? (seen : List Kind) : Vocabulary → Option Kind
  | [] => none
  | phrase :: rest =>
    if seen.contains phrase.kind then some phrase.kind
    else repeatedKind? (phrase.kind :: seen) rest

def new (v : Vocabulary) : Except Fault Compiler :=
  match repeatedKind? [] v with
  | some kind => .error (.duplicateKind kind)
  | none => .ok { vocabulary := v }

/-- The pattern of a kind, and the compiler with all patterns that were rendered for it. -/
def compile (c : Compiler) (kind : Kind) : Except Fault Pattern × Compiler :=
  let (result, rendered) :=
    (compileWithin c.vocabulary c.vocabulary.length [] kind).run.run c.rendered
  (result, { c with rendered })

end Compiler

end RulesText
