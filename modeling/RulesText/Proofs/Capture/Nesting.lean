import RulesText.Proofs.Capture.Faithful
import RulesText.Proofs.LexiconEntry

/-!
# Faithful lexicons

In the lexicon of a vocabulary no phrase contains itself, so what is nested in an entry is never
among the entries that have been left aside on the way to it. An entry is faithful with all that
is nested in it, if all entries are faithful one by one.

## Main definitions

* `Lexicon.Inlines`: the nested phrases of an entry have their own expressions in it.

## Main statements

* `Lexicon.faithful_of_build`: faithful entries, together with all that is nested in them.
-/

namespace RulesText.Lexicon

open Compiler (Nests)

/-- The phrases that are nested in the entry are read back field by field, and have their own
expressions in it, with the field's name before all of their groups. -/
def Inlines (l : Lexicon) (e : LexiconEntry) : Prop :=
  ∀ f ∈ e.fields, ∀ other, f.kind = .nested other → ∃ inner, l.find? other = some inner ∧
    inner.reading = .fields ∧
    (f.name, inner.regex.rename (Pattern.qualified f.name)) ∈ e.regex.namedGroups

variable {v : Vocabulary} {l : Lexicon} {e : LexiconEntry} {kind : Kind} {path : List Kind}

/-- The entries of a lexicon but for those of the given kinds. -/
def without (l : Lexicon) (path : List Kind) : List LexiconEntry :=
  l.entries.filter fun e => e.kind ∉ path

theorem others_without : others (l.without path) kind = l.without (kind :: path) := by
  rw [others, without, without, List.filter_filter]
  refine List.filter_congr fun e _ => ?_
  by_cases same : e.kind = kind <;> simp [same]

theorem find?_without (other : kind ∉ path) :
    (l.without path).find? (·.kind == kind) = l.find? kind := by
  rw [find?, without, List.find?_filter]
  congr 1
  funext e
  by_cases same : e.kind = kind <;> simp [same, other]

theorem kind_of_find? (found : l.find? kind = some e) : e.kind = kind := by
  simpa using List.find?_some found

theorem nests_of_mem (built : build v = .ok l) (mem : e ∈ l.entries) {f : LexiconField}
    (field : f ∈ e.fields) {other : Kind} (nested : f.kind = .nested other) :
    Nests v other e.kind := by
  obtain ⟨phrase, describes⟩ := exists_describes built mem
  obtain ⟨g, found, same⟩ := describes.field?_eq field
  exact ⟨phrase, describes.declared, g, List.mem_of_find?_eq_some found,
    (of_buildField same).2.1 ▸ nested⟩

/-- The entries that are nested in an entry, by field. -/
theorem Inlines.exists_inner (h : l.Inlines e) : ∃ inner : LexiconField → LexiconEntry,
    ∀ f ∈ e.fields, ∀ other, f.kind = .nested other → l.find? other = some (inner f) ∧
      (inner f).reading = .fields ∧
      (f.name, (inner f).regex.rename (Pattern.qualified f.name)) ∈ e.regex.namedGroups := by
  have each : ∀ f : LexiconField, ∃ inner, f ∈ e.fields → ∀ other, f.kind = .nested other →
      l.find? other = some inner ∧ inner.reading = .fields ∧
        (f.name, inner.regex.rename (Pattern.qualified f.name)) ∈ e.regex.namedGroups := by
    intro f
    by_cases nested : f ∈ e.fields ∧ ∃ other, f.kind = .nested other
    · obtain ⟨mem, other, kind⟩ := nested
      obtain ⟨inner, found⟩ := h f mem other kind
      refine ⟨inner, fun _ same kind' => ?_⟩
      obtain rfl := FieldKind.nested.inj (kind.symm.trans kind')
      exact found
    · exact ⟨e, fun mem other kind => absurd ⟨mem, other, kind⟩ nested⟩
  choose inner found using each
  exact ⟨inner, found⟩

section

variable (built : build v = .ok l)
  (all : ∀ e ∈ l.entries, e.reading = .fields → e.IsFaithful ∧ l.Inlines e)

include built all

/-- The induction is on what is nested in the kind. All that has been left aside on the way to it
contains it, so it is not among that. -/
theorem faithful_without (acc : Acc (Nests v) kind)
    (above : ∀ outer ∈ path, Relation.TransGen (Nests v) kind outer)
    (found : l.find? kind = some e) (reading : e.reading = .fields) :
    Faithful (l.without path) kind e := by
  induction acc generalizing e path with
  | intro kind _ ih =>
    have mem := List.mem_of_find?_eq_some found
    obtain rfl := kind_of_find? found
    obtain ⟨phrase, describes⟩ := exists_describes built mem
    have fresh : e.kind ∉ path := fun old => describes.renders.not_nests_self (above _ old)
    obtain ⟨faithful, inlines⟩ := all e mem reading
    obtain ⟨inner, nested⟩ := inlines.exists_inner
    refine .mk ((find?_without fresh).trans found) faithful inner (fun f field other eq => ?_)
      fun f field other eq => (nested f field other eq).2.2
    obtain ⟨found', reading', -⟩ := nested f field other eq
    have step := nests_of_mem built mem field eq
    rw [others_without]
    refine ih other step (fun outer old => ?_) found' reading'
    rcases List.mem_cons.1 old with rfl | old
    · exact .single step
    · exact .trans (.single step) (above outer old)

theorem faithful_of_build (mem : e ∈ l.entries) (reading : e.reading = .fields) :
    Faithful l.entries e.kind e := by
  obtain ⟨phrase, describes⟩ := exists_describes built mem
  have faithful : Faithful (l.without []) e.kind e :=
    faithful_without built all describes.renders.acc (by simp) (find?_of_build built mem) reading
  simpa [without] using faithful

end

end RulesText.Lexicon
