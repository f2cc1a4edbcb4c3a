import RulesText.Proofs.Capture.Nesting
import RulesText.Proofs.Pattern.Acceptance

/-!
# How deep phrases are read back

To read back what is nested in a phrase, the phrase itself is left aside, and so reading back
ends. In the lexicon of a vocabulary nothing is left out by this: the phrases left aside contain
what is read next, and no phrase contains itself. So reading back is the same with the whole
lexicon at every level, even over text that is never used up, and no more levels are needed than
there are kinds.

## Main definitions

* `Lexicon.readFrom`: one phrase is read back, where a given function reads what is nested in it.
* `Lexicon.readToDepth`: reading back with the whole lexicon at every level, down to a depth.
* `Hook.KnowsKinds`: the hook never finds a kind missing.

## Main statements

* `Lexicon.readBack_ends`: no level below the number of kinds is ever needed, and the only kind
  that can be missing is the one that was asked for.
-/

namespace RulesText

/-- A text is not what the phrase or the field should be. -/
def Fault.IsOfText : Fault → Prop
  | noMatchingMember _ _ _ | tokenMismatch _ _ => True
  | _ => False

/-- The hook never finds a kind missing. -/
def Hook.KnowsKinds (kind : Kind) (hook : Hook) : Prop :=
  ∀ line span missing, hook kind line span ≠ .error (.undeclaredKind missing)

theorem LoyaltyCost.knowsKinds_readBack (kind : Kind) : Hook.KnowsKinds kind readBack := by
  intro line span missing failed
  rw [readBack] at failed
  split at failed <;> cases failed

namespace Lexicon

open Compiler (Nests Renders)

/-- The tree of a phrase at a span of a line, where `nested` reads what is nested in it. -/
def readFrom (l : Lexicon) (nested : Kind → Span → Except Fault Capture) (line : Text)
    (kind : Kind) (span : Span) : Except Fault Capture :=
  match l.find? kind with
  | none => .error (.undeclaredKind kind)
  | some e =>
    match e.reading.hook? with
    | some hook => hook kind line span
    | none =>
      let text := Text.slice line span
      match e.exact.find? text with
      | none => .error (.tokenMismatch kind text)
      | some m => do
        let readings ← readFields nested text span.start m e.fields
        return assembleTree kind span readings

/-- Reading back with the whole lexicon at every level. What is nested more than `depth` levels
deep is left to `bottom`. -/
def readToDepth (l : Lexicon) (bottom : Kind → Span → Except Fault Capture) (line : Text) :
    (depth : Nat) → Kind → Span → Except Fault Capture
  | 0 => l.readFrom bottom line
  | depth + 1 => l.readFrom (l.readToDepth bottom line depth) line

variable {v : Vocabulary} {l : Lexicon} {entries : List LexiconEntry} {e : LexiconEntry}
  {f : LexiconField} {fields : List LexiconField}
  {nested other : Kind → Span → Except Fault Capture} {phrase : Phrase} {kind inner : Kind}
  {path : List Kind} {line text : Text} {span : Span} {m : Match}
  {start depth : Nat} {fault : Fault}

/-! ## Only nested kinds are asked for -/

theorem readField_congr {found? : Option Span}
    (same : ∀ inner, f.kind = .nested inner → nested inner = other inner) :
    readField nested text start f found? = readField other text start f found? := by
  rw [readField.eq_def, readField.eq_def]
  split
  · rfl
  · rfl
  · rfl
  · rfl
  · rename_i inner s eq
    rw [same inner eq]

theorem readFields_congr
    (same : ∀ f ∈ fields, ∀ inner, f.kind = .nested inner → nested inner = other inner) :
    readFields nested text start m fields = readFields other text start m fields := by
  induction fields with
  | nil => rfl
  | cons f fields ih =>
    obtain ⟨first, rest⟩ := List.forall_mem_cons.1 same
    rw [readFields, readFields, readField_congr first, ih rest]

/-- Only the kinds that are nested in the phrase are asked for. -/
theorem readFrom_congr (same : ∀ e, l.find? kind = some e → ∀ f ∈ e.fields, ∀ inner,
    f.kind = .nested inner → nested inner = other inner) :
    l.readFrom nested line kind = l.readFrom other line kind := by
  funext span
  rw [readFrom, readFrom]
  cases found : l.find? kind with
  | none => rfl
  | some e => simp only [readFields_congr (same e found)]

theorem readWithin_eq_readFrom (entries : List LexiconEntry) (line : Text) (kind : Kind) :
    readWithin entries line kind =
      readFrom ⟨entries⟩ (readWithin (others entries kind) line) line kind := by
  funext span
  rw [readWithin, readFrom, find?]
  cases entries.find? (·.kind == kind) <;> rfl

/-! ## The phrases left aside -/

/-- All that was left aside contains what is nested in the phrase that is left aside next. -/
theorem above_cons (above : ∀ outer ∈ path, Relation.TransGen (Nests v) kind outer)
    (nests : Nests v inner kind) :
    ∀ outer ∈ kind :: path, Relation.TransGen (Nests v) inner outer :=
  List.forall_mem_cons.2 ⟨.single nests, fun outer old => .trans (.single nests) (above outer old)⟩

section

variable (built : build v = .ok l)
include built

theorem exists_renders (declared : v.find? (·.kind == kind) = some phrase) :
    ∃ p, Renders v kind p := by
  obtain ⟨e, -, describes⟩ := exists_entry built (List.mem_of_find?_eq_some declared)
  obtain rfl : e.kind = kind :=
    (Compiler.kind_of_find? describes.declared).symm.trans (Compiler.kind_of_find? declared)
  exact ⟨_, describes.renders⟩

/-- What is nested in a phrase of the lexicon is there too. -/
theorem exists_entry_of_nests (nests : Nests v inner kind) : ∃ e, l.find? inner = some e := by
  obtain ⟨phrase, declared, -⟩ := id nests
  obtain ⟨p, renders⟩ := exists_renders built declared
  obtain ⟨q, renders⟩ := renders.of_nests nests
  obtain ⟨phrase, declared, -⟩ := renders.isSound
  obtain ⟨e, found, -⟩ := exists_entry built (List.mem_of_find?_eq_some declared)
  exact ⟨e, Compiler.kind_of_find? declared ▸ found⟩

/-- No phrase of the lexicon is nested in itself. -/
theorem not_nests_self : ¬Relation.TransGen (Nests v) kind kind := by
  intro cycle
  obtain ⟨outer, -, nests⟩ := Relation.TransGen.tail'_iff.1 cycle
  obtain ⟨phrase, declared, -⟩ := nests
  obtain ⟨p, renders⟩ := exists_renders built declared
  exact renders.not_nests_self cycle

theorem nests_of_find? (found : l.find? kind = some e) (mem : f ∈ e.fields)
    (eq : f.kind = .nested inner) : Nests v inner kind :=
  kind_of_find? found ▸ nests_of_mem built (List.mem_of_find?_eq_some found) mem eq

section

variable (above : ∀ outer ∈ path, Relation.TransGen (Nests v) kind outer)
include above

theorem notMem_of_above : kind ∉ path :=
  fun old => not_nests_self built (above kind old)

theorem length_without_cons_lt (found : l.find? kind = some e) :
    (l.without (kind :: path)).length < (l.without path).length := by
  rw [← others_without]
  exact length_others_lt ((find?_without (notMem_of_above built above)).trans found)

/-- Where everything that was left aside contains the phrase, it is read back as with the whole
lexicon, but for what is nested in it. -/
theorem readWithin_without (same : ∀ e, l.find? kind = some e → ∀ f ∈ e.fields, ∀ inner,
    f.kind = .nested inner → readWithin (l.without (kind :: path)) line inner = nested inner) :
    readWithin (l.without path) line kind = l.readFrom nested line kind := by
  have found : find? ⟨l.without path⟩ kind = l.find? kind :=
    find?_without (notMem_of_above built above)
  rw [readWithin_eq_readFrom, others_without, ← readFrom_congr same]
  funext span
  rw [readFrom, readFrom, found]

/-- The induction is on the depth: on every level one more phrase is left aside, and below the
last level none is left. -/
theorem readWithin_eq_readToDepth (bottom : Kind → Span → Except Fault Capture)
    (deep : (l.without path).length ≤ depth + 1) :
    readWithin (l.without path) line kind = l.readToDepth bottom line depth kind := by
  induction depth generalizing path kind with
  | zero =>
    refine readWithin_without built above fun e found f mem inner eq => ?_
    have less := length_without_cons_lt built above found
    have nests := nests_of_find? built found mem eq
    obtain ⟨e', found'⟩ := exists_entry_of_nests built nests
    have left := find?_without (notMem_of_above built (above_cons above nests)) |>.trans found'
    have := List.length_pos_of_mem (List.mem_of_find?_eq_some left)
    omega
  | succ depth ih =>
    refine readWithin_without built above fun e found f mem inner eq => ?_
    have less := length_without_cons_lt built above found
    exact ih (above_cons above (nests_of_find? built found mem eq)) (by omega)

end

theorem length_of_build : l.entries.length = v.length := by
  rw [← List.length_map (·.kind), map_kind_of_build built, List.length_map]

theorem readBack_eq_readToDepth (bottom : Kind → Span → Except Fault Capture)
    (deep : v.length ≤ depth + 1) :
    readWithin l.entries line kind = l.readToDepth bottom line depth kind := by
  have whole : l.without [] = l.entries := by simp [without]
  rw [← whole]
  refine readWithin_eq_readToDepth built (by simp) bottom ?_
  rw [whole, length_of_build built]
  exact deep

/-- Reading back goes on with the whole lexicon. -/
theorem readBack_eq_readFrom : l.readBack kind line span =
    l.readFrom (fun inner => l.readBack inner line) line kind span := by
  let bottom : Kind → Span → Except Fault Capture := fun inner => l.readBack inner line
  have below : l.readToDepth bottom line v.length = fun inner => l.readBack inner line :=
    funext fun inner => (readBack_eq_readToDepth built bottom (Nat.le_succ _)).symm
  have level : readWithin l.entries line kind = l.readToDepth bottom line (v.length + 1) kind :=
    readBack_eq_readToDepth built bottom (Nat.le_add_right v.length 2)
  rw [readToDepth, below] at level
  exact congrFun level span

end

/-! ## Faults -/

theorem fault_of_readField {found? : Option Span}
    (h : readField nested text start f found? = .error fault) :
    (∃ family captured, fault = .noMatchingMember f.name family captured) ∨
      ∃ inner s, f.kind = .nested inner ∧ nested inner s = .error fault := by
  rw [readField.eq_def] at h
  split at h
  · cases h
  · cases h
  · dsimp only at h
    split at h
    · cases h
    · exact .inl ⟨_, _, (Except.error.inj h).symm⟩
  · cases h
  · rename_i inner s eq
    rcases bind_eq_error.1 h with failed | ⟨tree, -, h⟩
    · exact .inr ⟨inner, _, eq, failed⟩
    · cases h

theorem fault_of_readFields (h : readFields nested text start m fields = .error fault) :
    ∃ f ∈ fields, readField nested text start f (m.group? f.name) = .error fault := by
  induction fields with
  | nil => cases h
  | cons f fields ih =>
    rw [readFields] at h
    rcases bind_eq_error.1 h with first | ⟨reading, -, h⟩
    · exact ⟨f, List.mem_cons_self, first⟩
    · rcases bind_eq_error.1 h with rest | ⟨readings, -, h⟩
      · obtain ⟨g, mem, failed⟩ := ih rest
        exact ⟨g, List.mem_cons_of_mem _ mem, failed⟩
      · cases h

/-- Reading back a phrase of the lexicon fails because of its text, because its hook fails, or
because of what is nested in it. -/
theorem fault_of_readFrom (found : l.find? kind = some e)
    (h : l.readFrom nested line kind span = .error fault) : fault.IsOfText ∨
      (∃ hook, e.reading.hook? = some hook ∧ hook kind line span = .error fault) ∨
      ∃ f ∈ e.fields, ∃ inner s, f.kind = .nested inner ∧ nested inner s = .error fault := by
  simp only [readFrom, found] at h
  split at h
  · rename_i hook reads
    exact .inr (.inl ⟨hook, reads, h⟩)
  · split at h
    · obtain rfl := Except.error.inj h
      exact .inl trivial
    · rcases bind_eq_error.1 h with failed | ⟨readings, -, h⟩
      · obtain ⟨f, mem, failed⟩ := fault_of_readFields failed
        rcases fault_of_readField failed with ⟨family, captured, rfl⟩ | ⟨inner, s, eq, failed⟩
        · exact .inl trivial
        · exact .inr (.inr ⟨f, mem, inner, s, eq, failed⟩)
      · cases h

/-- Below a phrase of the lexicon no kind is missing. -/
theorem ne_undeclaredKind_of_readBack (built : build v = .ok l)
    (hooks : v.HooksKeep Hook.KnowsKinds) (found : l.find? kind = some e) (missing : Kind) :
    l.readBack kind line span ≠ .error (.undeclaredKind missing) := by
  obtain ⟨phrase, describes⟩ := exists_describes built (List.mem_of_find?_eq_some found)
  have acc := kind_of_find? found ▸ describes.renders.acc
  induction acc generalizing e phrase span with
  | intro kind _ ih =>
    intro h
    rw [readBack_eq_readFrom built] at h
    rcases fault_of_readFrom found h with own | ⟨hook, reads, failed⟩ |
      ⟨f, mem, inner, s, eq, failed⟩
    · cases own
    · have knows := describes.keeps hooks reads
      rw [kind_of_find? found] at knows
      exact knows line span missing failed
    · have nests := nests_of_find? built found mem eq
      obtain ⟨e', found'⟩ := exists_entry_of_nests built nests
      obtain ⟨phrase, describes⟩ := exists_describes built (List.mem_of_find?_eq_some found')
      exact ih inner nests found' phrase describes failed

theorem find?_eq_none_iff (built : build v = .ok l) :
    l.find? kind = none ↔ kind ∉ v.map (·.kind) := by
  rw [← map_kind_of_build built, find?, List.find?_eq_none]
  simp

/-- Reading back ends for every kind at every span, be it outside of the line or reversed. It
never goes more levels deep than there are kinds: whatever stands below these levels, the result
is the same, so nothing asks for it. A kind is found missing only if it is the one that was asked
for, as long as no hook finds one missing. -/
theorem readBack_ends (built : build v = .ok l) (kind : Kind) (line : Text) (span : Span) :
    (∀ bottom depth, v.length ≤ depth + 1 →
      l.readToDepth bottom line depth kind span = l.readBack kind line span) ∧
    (v.HooksKeep Hook.KnowsKinds →
      ∀ missing, l.readBack kind line span = .error (.undeclaredKind missing) ↔
        missing = kind ∧ kind ∉ v.map (·.kind)) := by
  refine ⟨fun bottom depth deep => ?_, fun hooks missing => ⟨fun failed => ?_, ?_⟩⟩
  · exact (congrFun (readBack_eq_readToDepth built bottom deep) span).symm
  · cases found : l.find? kind with
    | some e => exact absurd failed (ne_undeclaredKind_of_readBack built hooks found missing)
    | none =>
      rw [readBack_eq_readFrom built, readFrom, found] at failed
      exact ⟨(Fault.undeclaredKind.inj (Except.error.inj failed)).symm,
        (find?_eq_none_iff built).1 found⟩
  · rintro ⟨rfl, undeclared⟩
    rw [readBack_eq_readFrom built, readFrom, (find?_eq_none_iff built).2 undeclared]

/-- A phrase with a hook inside a phrase inside it, and a span that is reversed and begins outside
of the line. -/
theorem readBack_ends_tappedCards : ∃ l, build tappedCards = .ok l ∧
    tappedCards.HooksKeep Hook.KnowsKinds ∧
    ∀ span ∈ [(⟨0, 21⟩ : Span), ⟨40, 4⟩],
      (∀ bottom depth, tappedCards.length ≤ depth + 1 →
        l.readToDepth bottom "pay −2: tapped card" depth .objectRef span =
          l.readBack .objectRef "pay −2: tapped card" span) ∧
      ∀ missing,
        l.readBack .objectRef "pay −2: tapped card" span = .error (.undeclaredKind missing) ↔
          missing = .objectRef ∧ Kind.objectRef ∉ tappedCards.map (·.kind) := by
  have accepted : (build tappedCards).toOption.isSome := by decide +kernel
  obtain ⟨l, built⟩ := Option.isSome_iff_exists.1 accepted
  have built := Regex.Searcher.toOption_eq_some_iff.1 built
  have hooks : tappedCards.HooksKeep Hook.KnowsKinds :=
    .of_loyaltyCost only_tappedCards LoyaltyCost.knowsKinds_readBack
  refine ⟨l, built, hooks, fun span _ => ?_⟩
  obtain ⟨depths, kinds⟩ := readBack_ends built .objectRef "pay −2: tapped card" span
  exact ⟨depths, kinds hooks⟩

end Lexicon

end RulesText
