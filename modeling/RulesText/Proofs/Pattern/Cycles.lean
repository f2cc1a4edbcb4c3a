import Mathlib.Data.List.Chain
import RulesText.Proofs.Pattern.Faults
import RulesText.Proofs.Pattern.Independence

/-!
# Cycles of nested phrases

The kinds in progress are a way down from the kind that was asked for: each is declared, none is
there twice, and each phrase nests the next one. Where the way comes to a kind that is already on
it, the part from that kind on is a cycle. It is this part that the fault shows, without the way
that leads to it.

## Main definitions

* `Compiler.IsCycle`: a chain of kinds goes around a cycle once.
* `Compiler.WayDown`: the kinds in progress lead from the kind that was asked for to the next one.

## Main statements

* `Compiler.isCycle_of_compileAll`: every cycle that a compiler reports is one.
-/

namespace RulesText.Compiler

variable {v : Vocabulary} {path chain : List Kind} {top kind inner : Kind}

/-- The chain begins with a kind, goes through nested phrases of other kinds, each of them once,
and ends where it has begun. -/
structure IsCycle (v : Vocabulary) (chain : List Kind) : Prop where
  two_le_length : 2 ≤ chain.length
  head?_eq : chain.head? = chain.getLast?
  distinct : chain.dropLast.Nodup
  declared : ∀ kind ∈ chain, kind ∈ v.map (·.kind)
  nests : chain.IsChain fun outer inner => Nests v inner outer

/-! ## The way to a kind -/

/-- The kinds on the path lead from `top` down to the kind that comes next. -/
structure WayDown (v : Vocabulary) (top : Kind) (path : List Kind) (kind : Kind) : Prop where
  distinct : path.Nodup
  declared : ∀ outer ∈ path, outer ∈ v.map (·.kind)
  nests : (path ++ [kind]).IsChain fun outer inner => Nests v inner outer
  below : Relation.ReflTransGen (Nests v) kind top

theorem WayDown.start (v : Vocabulary) (top : Kind) : WayDown v top [] top :=
  ⟨.nil, by simp, .singleton top, .refl⟩

theorem Nests.declared (h : Nests v inner kind) : kind ∈ v.map (·.kind) := by
  obtain ⟨phrase, declared, -⟩ := h
  exact List.mem_map.2 ⟨phrase, List.mem_of_find?_eq_some declared, kind_of_find? declared⟩

theorem WayDown.step (h : WayDown v top path kind) (new : kind ∉ path)
    (nests : Nests v inner kind) : WayDown v top (path ++ [kind]) inner where
  distinct := by
    rw [← List.concat_eq_append, List.nodup_concat]
    exact ⟨new, h.distinct⟩
  declared outer mem := by
    rcases List.mem_append.1 mem with mem | mem
    · exact h.declared outer mem
    · exact List.mem_singleton.1 mem ▸ nests.declared
  nests := by
    refine h.nests.append (.singleton inner) fun outer last next first => ?_
    rw [List.getLast?_concat, Option.mem_some_iff] at last
    rw [List.head?_cons, Option.mem_some_iff] at first
    exact last ▸ first ▸ nests
  below := .head nests h.below

/-- Where the way comes to a kind that is on it, it has gone around a cycle since. -/
theorem WayDown.exists_cycle (h : WayDown v top path kind) (old : kind ∈ path) :
    ∃ back, path.dropWhile (· != kind) = kind :: back ∧ IsCycle v (kind :: back ++ [kind]) := by
  obtain ⟨front, back, rfl, first⟩ := List.eq_append_cons_of_mem old
  have passed : ∀ outer ∈ front, (outer != kind) = true := by
    intro outer mem
    simpa using fun same : outer = kind => first (same ▸ mem)
  refine ⟨back, ?_, ?_⟩
  · rw [List.dropWhile_append_of_pos passed]
    exact List.dropWhile_cons_of_neg (by simp)
  · have declared := (List.forall_mem_append.1 h.declared).2
    have nests := h.nests
    rw [List.append_assoc] at nests
    constructor
    case two_le_length => simp
    case head?_eq => rw [List.getLast?_concat, List.cons_append, List.head?_cons]
    case distinct =>
      rw [List.dropLast_concat]
      exact (List.nodup_append.1 h.distinct).2.1
    case declared =>
      exact List.forall_mem_append.2 ⟨declared, by simpa using (List.forall_mem_cons.1 declared).1⟩
    case nests => exact nests.right_of_append

/-! ## What a compiler reports -/

/-- The induction goes down to the kind that is in progress already; the way there is carried
along. -/
theorem Fails.isCycle (h : Fails v path kind (.cyclicNesting chain))
    (way : WayDown v top path kind) :
    IsCycle v chain ∧ ∃ first, chain.head? = some first ∧
      Relation.ReflTransGen (Nests v) first top := by
  generalize eq : Fault.cyclicNesting chain = fault at h
  induction h with
  | cyclic old =>
    obtain ⟨back, reported, cycle⟩ := way.exists_cycle old
    obtain rfl := Fault.cyclicNesting.inj eq
    rw [reported]
    exact ⟨cycle, _, rfl, way.below⟩
  | undeclared => cases eq
  | own ofPhrase =>
    subst eq
    cases ofPhrase
  | nested new nests fails ih => exact ih (way.step new nests) eq

/-- If a compiler says that phrases are nested in a cycle, whatever it was asked for before and
whether that failed or not, then its chain goes once around a cycle, from a kind that the kind
asked for leads to. -/
theorem isCycle_of_compileAll {c : Compiler} (new : Compiler.new v = .ok c) {kinds : List Kind}
    {i : Nat} (reported : (c.compileAll kinds)[i]? = some (.error (.cyclicNesting chain))) :
    IsCycle v chain ∧ ∃ kind first, kinds[i]? = some kind ∧ chain.head? = some first ∧
      Relation.ReflTransGen (Nests v) first kind := by
  obtain ⟨-, rfl⟩ := eq_of_new new
  rw [compileAll_eq (by simp), List.getElem?_map] at reported
  obtain ⟨kind, asked, failed⟩ := Option.map_eq_some_iff.1 reported
  obtain ⟨cycle, first, begins, below⟩ := (fails_of_outcome failed).isCycle (.start v kind)
  exact ⟨cycle, kind, first, asked, begins, below⟩

/-- A phrase that is not on the cycle it leads to. -/
def quotedEachOther : Vocabulary :=
  { kind := .quotedAbility, template := "with {text}", fields := [.nested "text" .youMay] } ::
    eachOther

theorem isCycle_quotedEachOther : ∃ c, Compiler.new quotedEachOther = .ok c ∧
    (c.compileAll [.drawCards, .quotedAbility])[1]? =
      some (.error (.cyclicNesting [.youMay, .drawCards, .youMay])) ∧
    IsCycle quotedEachOther [.youMay, .drawCards, .youMay] ∧
    ∃ kind first, [Kind.drawCards, .quotedAbility][1]? = some kind ∧
      [Kind.youMay, .drawCards, .youMay].head? = some first ∧
      Relation.ReflTransGen (Nests quotedEachOther) first kind := by
  have new : Compiler.new quotedEachOther = .ok { vocabulary := quotedEachOther } :=
    new_eq_ok (by decide)
  have reported : (compileAll { vocabulary := quotedEachOther } [.drawCards, .quotedAbility])[1]? =
      some (.error (.cyclicNesting [.youMay, .drawCards, .youMay])) := by decide +kernel
  exact ⟨_, new, reported, isCycle_of_compileAll new reported⟩

end RulesText.Compiler
