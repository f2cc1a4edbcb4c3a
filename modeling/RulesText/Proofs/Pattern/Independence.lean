import Mathlib.Data.List.Find
import RulesText.Proofs.LexiconEntry
import RulesText.Proofs.Pattern.Acceptance

/-!
# Order does not matter

A compiler gives the same result for a kind whatever it was asked for before, also when some of
that failed, and whatever the order of the declarations. So the order of a vocabulary does not
change the entries of its lexicon.

## Main definitions

* `Compiler.compileAll`: the results of several requests to one compiler.
-/

namespace RulesText

/-- What has a key of its own is found in any order. -/
theorem find?_perm {α β : Type} [BEq β] [LawfulBEq β] {key : α → β} {l l' : List α}
    (distinct : (l.map key).Nodup) (perm : l.Perm l') (b : β) :
    l.find? (key · == b) = l'.find? (key · == b) := by
  refine List.find?_eq_find?_of_perm perm fun x hx y hy => ?_
  have same : key x = key y := (beq_iff_eq.1 hx.2).trans (beq_iff_eq.1 hy.2).symm
  exact List.inj_on_of_nodup_map distinct hx.1 hy.1 same

namespace Compiler

variable {v w : Vocabulary}

/-- The results of requests that are made of one compiler, one after the other. -/
def compileAll (c : Compiler) : List Kind → List (Except Fault Pattern)
  | [] => []
  | kind :: rest => (c.compile kind).1 :: compileAll (c.compile kind).2 rest

/-- What a compiler was asked for before does not change a result. -/
theorem compileAll_eq {c : Compiler} (all : ∀ p ∈ c.rendered, Renders c.vocabulary p.kind p)
    (kinds : List Kind) : c.compileAll kinds = kinds.map (outcome c.vocabulary []) := by
  induction kinds generalizing c with
  | nil => rfl
  | cons kind kinds ih =>
    obtain ⟨same, kept, -⟩ := renders_compile all kind
    rw [compileAll, compile_eq_outcome all, ih (same ▸ kept), same, List.map_cons]

/-- The result of a kind depends only on which phrase each kind has. -/
theorem outcome_congr (same : ∀ kind, v.find? (·.kind == kind) = w.find? (·.kind == kind))
    (path : List Kind) (kind : Kind) : outcome v path kind = outcome w path kind := by
  generalize count : unvisited v path = n
  induction n using Nat.strongRecOn generalizing path kind with
  | _ n ih =>
    rw [outcome_eq, outcome_eq, ← same]
    split
    · rfl
    · rename_i new
      cases declared : v.find? (·.kind == kind) with
      | none => rfl
      | some phrase =>
        have inner := ih _ (count ▸ unvisited_lt new declared) (path ++ [kind])
        exact congrArg (renderFrom · phrase) (funext fun other => inner other rfl)

end Compiler

namespace Lexicon

open Compiler (Renders outcome)

variable {v w : Vocabulary} {l : Lexicon}

/-- The entry of a phrase, from the outcome of its kind. -/
def entryOf (v : Vocabulary) (phrase : Phrase) : Except Fault LexiconEntry := do
  buildEntry phrase (← outcome v [] phrase.kind)

/-- The entries of a lexicon are built one by one, each from the vocabulary alone. -/
theorem buildEntries_eq_mapM {c : Compiler}
    (all : ∀ p ∈ c.rendered, Renders c.vocabulary p.kind p) (phrases : List Phrase) :
    buildEntries c phrases = phrases.mapM (entryOf c.vocabulary) := by
  induction phrases generalizing c with
  | nil => rfl
  | cons phrase phrases ih =>
    obtain ⟨same, kept, -⟩ := Compiler.renders_compile all phrase.kind
    have later := ih (same ▸ kept)
    rw [same] at later
    rw [List.mapM_cons, entryOf, bind_assoc, ← Compiler.compile_eq_outcome all, ← later]
    rfl

theorem build_eq_mapM (distinct : (v.map (·.kind)).Nodup) :
    build v = do return { entries := ← v.mapM (entryOf v) } := by
  have entries : buildEntries { vocabulary := v } v = v.mapM (entryOf v) :=
    buildEntries_eq_mapM (by simp) v
  rw [build, Compiler.new_eq_ok distinct, ← entries]
  rfl

theorem build_perm (distinct : (v.map (·.kind)).Nodup) (perm : v.Perm w) (h : build v = .ok l) :
    ∃ m, build w = .ok m ∧ ∀ kind, m.find? kind = l.find? kind := by
  have same := Compiler.outcome_congr (find?_perm distinct perm) []
  have entry : entryOf w = entryOf v := by
    funext phrase
    rw [entryOf, entryOf, same]
  have keys := nodup_of_build h
  rw [build_eq_mapM distinct] at h
  obtain ⟨entries, built, eq⟩ := bind_eq_ok.1 h
  obtain rfl := Except.ok.inj eq
  obtain ⟨others, all, reordered⟩ := List.perm_comp_forall₂ perm.symm (mapM_eq_ok.1 built)
  refine ⟨⟨others⟩, ?_, fun kind => ?_⟩
  · rw [build_eq_mapM ((perm.map _).nodup_iff.1 distinct), entry, mapM_eq_ok.2 all]
    rfl
  · exact (find?_perm keys reordered.symm kind).symm

end Lexicon

namespace Compiler

variable {v w : Vocabulary}

/-- Requests to one compiler give what each of them gives on a compiler of its own, for the same
declarations in any order; and if the vocabulary has a lexicon, then it has the same entries in
any order. -/
theorem compileAll_perm (distinct : (v.map (·.kind)).Nodup) (perm : v.Perm w) :
    ∃ c d, Compiler.new v = .ok c ∧ Compiler.new w = .ok d ∧
      (∀ kinds, c.compileAll kinds = kinds.map fun kind => (d.compile kind).1) ∧
      ∀ l, Lexicon.build v = .ok l →
        ∃ m, Lexicon.build w = .ok m ∧ ∀ kind, m.find? kind = l.find? kind := by
  refine ⟨_, _, new_eq_ok distinct, new_eq_ok ((perm.map _).nodup_iff.1 distinct), ?_,
    fun l => Lexicon.build_perm distinct perm⟩
  intro kinds
  rw [compileAll_eq (by simp)]
  refine List.map_congr_left fun kind _ => ?_
  rw [compile_eq_outcome (by simp)]
  exact outcome_congr (find?_perm distinct perm) [] kind

theorem compileAll_eachOther : (eachOther.map (·.kind)).Nodup ∧
    eachOther.Perm eachOther.reverse ∧
    ∃ c d, Compiler.new eachOther = .ok c ∧ Compiler.new eachOther.reverse = .ok d ∧
      c.compileAll [.youMay, .shuffle, .drawCards] =
        [(d.compile .youMay).1, (d.compile .shuffle).1, (d.compile .drawCards).1] := by
  have distinct : (eachOther.map (·.kind)).Nodup := by decide
  have perm : eachOther.Perm eachOther.reverse := (List.reverse_perm _).symm
  obtain ⟨c, d, new, other, same, -⟩ := compileAll_perm distinct perm
  exact ⟨distinct, perm, c, d, new, other, same _⟩

end Compiler

end RulesText
