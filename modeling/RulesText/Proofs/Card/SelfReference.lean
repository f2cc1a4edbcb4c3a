import RulesText.Card.Name
import RulesText.Proofs.Regex.Literals
import RulesText.Proofs.Regex.Priority

/-!
# How a card's names are found

The names of a card are found by the pattern of all of them, each between word boundaries at its
word edges. At every place the first name in their order that stands there is found.

## Main definitions

* `Card.selfPattern`: the pattern text of a card's names.
* `Card.IsBounded`: what has to be on both sides of a name.

## Main statements

* `Card.parse?_selfPattern`: the pattern is always an expression.
* `Card.matchAt?_eq`: which name is found at a place.
-/

namespace RulesText.Card

open Regex (IsRow Look look char chain branchOf oneOf)

variable {name n t : Text} {r : Regex.Searcher} {c : Cursor}

/-! ## Pattern texts -/

/-- The pattern text of the boundary at an edge. -/
def boundaryText : Edge → Text
  | .word => "\\b"
  | .other => []

/-- The pattern text of one name. -/
def namePattern (n : Text) : Text :=
  boundaryText (Edge.leading (Regex.escape n)) ++ Regex.escape n ++
    boundaryText (Edge.trailing (Regex.escape n))

/-- The pattern text of all names of a card. -/
def selfPattern (name : Text) : Text :=
  Text.join ['|'] ((names name).map namePattern)

/-- The expressions of one name. -/
def nameExprs (n : Text) : List Regex :=
  boundaryAt (Edge.leading (Regex.escape n)) ++ n.map char ++
    boundaryAt (Edge.trailing (Regex.escape n))

theorem isRow_boundaryText (e : Edge) : IsRow (boundaryText e) (boundaryAt e) := by
  cases e with
  | word => exact .wordBoundary
  | other => exact .nil

theorem isRow_namePattern (n : Text) : IsRow (namePattern n) (nameExprs n) :=
  ((isRow_boundaryText _).append (Regex.isRow_escape n)).append (isRow_boundaryText _)

/-- The expressions of a name are characters and conditions. -/
theorem of_mem_nameExprs {p : Regex → Prop} (one : ∀ x, p (char x))
    (bound : p (look .wordBoundary)) : ∀ r ∈ nameExprs n, p r := by
  have edge : ∀ e : Edge, ∀ r ∈ boundaryAt e, p r := by
    intro e r mem
    cases e with
    | word => exact List.mem_singleton.1 mem ▸ bound
    | other => cases mem
  intro r mem
  rcases List.mem_append.1 mem with mem | mem
  · rcases List.mem_append.1 mem with mem | mem
    · exact edge _ r mem
    · obtain ⟨x, -, rfl⟩ := List.mem_map.1 mem
      exact one x
  · exact edge _ r mem

theorem branchOf_nameExprs (n : Text) : branchOf (nameExprs n) = nameRegex n := by
  have items : ∀ r ∈ nameExprs n, r.items = [r] := of_mem_nameExprs (fun _ => rfl) rfl
  rw [branchOf, List.flatMap_congr items, List.flatMap_singleton']
  rfl

theorem selfReference?_eq_none (nameless : names name = []) : selfReference? name = none := by
  rw [selfReference?, nameless]

theorem selfReference?_eq (named : names name ≠ []) :
    selfReference? name = some (oneOf ((names name).map nameRegex)).searcher := by
  rw [selfReference?]
  split
  · contradiction
  · rename_i eq
    rw [eq]
    rfl

theorem names_ne_nil (named : selfReference? name = some r) : names name ≠ [] := fun none => by
  rw [selfReference?_eq_none none] at named
  cases named

theorem searcher_eq (named : selfReference? name = some r) :
    (oneOf ((names name).map nameRegex)).searcher = r :=
  Option.some.inj ((selfReference?_eq (names_ne_nil named)).symm.trans named)

/-- The pattern of a card's names is always an expression, and the names are found by it. -/
theorem parse?_selfPattern (named : names name ≠ []) :
    ∃ r, Regex.parse? (selfPattern name) = some r ∧ selfReference? name = some r.searcher := by
  refine ⟨_, IsRow.parse?_join namePattern named fun n _ => isRow_namePattern n, ?_⟩
  simp only [branchOf_nameExprs]
  exact selfReference?_eq named

/-! ## Names at a place -/

/-- Whether the boundary at an edge is at a place. -/
def holdsAt : Edge → Cursor → Bool
  | .word, c => Look.wordBoundary.holds c
  | .other, _ => true

/-- Whether a name stands at a place, between boundaries at its word edges. -/
def standsAt (n : Text) (c : Cursor) : Bool :=
  holdsAt (Edge.leading (Regex.escape n)) c && decide (n <+: c.ahead) &&
    holdsAt (Edge.trailing (Regex.escape n)) (c.past n)

theorem chain_boundaryAt (e : Edge) (m : Match) :
    chain (boundaryAt e) m = if holdsAt e m.stop then [m] else [] := by
  cases e with
  | word => rw [boundaryAt, Regex.chain_singleton]; rfl
  | other => rfl

theorem ways_nameRegex (n : Text) (m : Match) :
    (nameRegex n).ways m = if standsAt n m.stop then [m.past n] else [] := by
  rw [← branchOf_nameExprs, Regex.ways_branchOf, nameExprs, Regex.chain_append,
    Regex.chain_append, Ways.andThen, Ways.andThen, chain_boundaryAt, standsAt]
  by_cases first : holdsAt (Edge.leading (Regex.escape n)) m.stop
  · by_cases here : n <+: m.stop.ahead
    · simp [first, here, Regex.chain_chars, chain_boundaryAt, Match.past]
    · simp [first, here, Regex.chain_chars]
  · simp [first]

theorem isSteady_names (l : List Text) : (oneOf (l.map nameRegex)).isSteady := by
  rw [Regex.distributes_isSteady.oneOf, List.all_map, List.all_eq_true]
  intro n _
  have parts : ∀ r ∈ nameExprs n, r.isSteady := of_mem_nameExprs (fun _ => rfl) rfl
  rw [Function.comp_apply, ← branchOf_nameExprs, Regex.distributes_isSteady.branchOf]
  exact List.all_eq_true.2 parts

theorem ways_names {l : List Text} (nonempty : l ≠ []) (m : Match) :
    (oneOf (l.map nameRegex)).ways m = (l.filter (standsAt · m.stop)).map m.past := by
  have single : ∀ r ∈ l.map nameRegex, ∀ i ∈ r.items, ∀ m, (i.ways m).length ≤ 1 := by
    intro r mem i item
    obtain ⟨n, -, rfl⟩ := List.mem_map.1 mem
    rw [nameRegex, Regex.items_sequence] at item
    obtain ⟨s, mem, item⟩ := List.mem_flatMap.1 item
    have own : ∀ s ∈ nameExprs n, ∀ i ∈ s.items, ∀ m, (i.ways m).length ≤ 1 := by
      refine of_mem_nameExprs (fun x i item m => ?_) fun i item m => ?_
      · obtain rfl := List.mem_singleton.1 item
        rw [Regex.ways_char]
        split <;> simp
      · obtain rfl := List.mem_singleton.1 item
        rw [Regex.ways]
        split <;> simp
    exact own s mem i item
  have collected : ∀ l : List Text,
      (l.flatMap fun n => if standsAt n m.stop then [m.past n] else []) =
        (l.filter (standsAt · m.stop)).map m.past := by
    intro l
    induction l with
    | nil => rfl
    | cons n l ih => by_cases here : standsAt n m.stop <;> simp [here, ih]
  rw [Regex.ways_oneOf (by simpa using nonempty) single, List.flatMap_map, ← collected]
  exact List.flatMap_congr fun n _ => ways_nameRegex n m

/-- At a place, the first name in the order of the names that stands there is found. -/
theorem matchAt?_eq (named : selfReference? name = some r) (place : c.IsPlace t) :
    r.matchAt? c = ((names name).find? (standsAt · c)).map (Match.past { stop := c }) := by
  rw [← searcher_eq named, Regex.matchAt?_eq_head? (isSteady_names _) place,
    ways_names (names_ne_nil named), List.head?_map, List.head?_filter]

/-- A name is found at a place just when one stands there. -/
theorem isSome_matchAt?_iff (named : selfReference? name = some r) (place : c.IsPlace t) :
    (r.matchAt? c).isSome ↔ ∃ n ∈ names name, standsAt n c := by
  rw [matchAt?_eq named place, Option.isSome_map, List.find?_isSome]

/-- A text has a self reference just when a name stands at one of its places. -/
theorem occursIn_iff (named : selfReference? name = some r) :
    r.occursIn t ↔ ∃ c : Cursor, c.IsPlace t ∧ ∃ n ∈ names name, standsAt n c := by
  rw [← searcher_eq named, Regex.occursIn_iff]
  refine exists_congr fun c => ?_
  rw [exists_and_left]
  refine and_congr_right fun place => ?_
  rw [← Regex.isSome_matchAt?_iff place, searcher_eq named, isSome_matchAt?_iff named place]

/-! ## Names between other characters -/

/-- A name is between boundaries at its word edges, if word characters stand before it and behind
it or not. -/
structure IsBounded (n : Text) (before after : Bool) : Prop where
  leading : Edge.leading (Regex.escape n) = .word → before ≠ n.head?.any Text.isWordChar
  trailing : Edge.trailing (Regex.escape n) = .word → n.getLast?.any Text.isWordChar ≠ after

theorem holdsAt_iff {e : Edge} : holdsAt e c ↔
    (e = .word → c.behindIs Text.isWordChar ≠ c.aheadIs Text.isWordChar) := by
  cases e with
  | word => exact ⟨fun holds _ => bne_iff_ne.1 holds, fun differ => bne_iff_ne.2 (differ rfl)⟩
  | other => simp [holdsAt]

theorem behindIs_of_behind {p : Text} (behind : c.behind = n.reverse ++ p) (ne : n ≠ [])
    (f : Char → Bool) : c.behindIs f = n.getLast?.any f := by
  have nonempty : n.reverse ≠ [] := List.reverse_ne_nil_iff.2 ne
  rw [Cursor.behindIs, behind, List.head?_append_of_ne_nil _ nonempty, List.head?_reverse]

theorem standsAt_iff (ne : n ≠ []) : standsAt n c ↔ ∃ after, c.ahead = n ++ after ∧
    IsBounded n (c.behindIs Text.isWordChar) (after.head?.any Text.isWordChar) := by
  have last : (c.past n).behindIs Text.isWordChar = n.getLast?.any Text.isWordChar :=
    behindIs_of_behind rfl ne _
  have first : ∀ after, c.ahead = n ++ after →
      c.aheadIs Text.isWordChar = n.head?.any Text.isWordChar := fun after eq => by
    rw [Cursor.aheadIs, eq, List.head?_append_of_ne_nil _ ne]
  rw [standsAt, Bool.and_eq_true, Bool.and_eq_true, holdsAt_iff, holdsAt_iff, decide_eq_true_eq,
    last]
  constructor
  · rintro ⟨⟨leading, after, eq⟩, trailing⟩
    have rest : (c.past n).ahead = after := Cursor.ahead_past eq.symm
    rw [first after eq.symm] at leading
    rw [Cursor.aheadIs, rest] at trailing
    exact ⟨after, eq.symm, leading, trailing⟩
  · rintro ⟨after, eq, leading, trailing⟩
    have rest : (c.past n).ahead = after := Cursor.ahead_past eq
    rw [first after eq, Cursor.aheadIs, rest]
    exact ⟨⟨leading, after, eq.symm⟩, trailing⟩

end RulesText.Card
