/-!
# Tables of code points

Properties of characters beyond ASCII are tables: ascending ranges for a yes-or-no property,
runs of equal shifts for a mapping from one character to another.

## Main definitions

* `CodeRanges`: a set of code points, with `contains`.
* `CodeRanges.ofList`, `union`, `complement`, `intersection`, `difference`: sets as a whole.
* `CodeShift`: a run of a mapping.
-/

namespace RulesText.Text

/-- A set of code points as disjoint closed ranges in ascending order. -/
structure CodeRanges where
  ranges : Array (Nat × Nat)
deriving DecidableEq, Repr

namespace CodeRanges

/-- Halving search for `n` among the ranges from index `lo` up to `hi`, in at most `steps`
steps. -/
def containsBetween (t : CodeRanges) (n : Nat) : (steps lo hi : Nat) → Bool
  | 0, _, _ => false
  | steps + 1, lo, hi =>
    if lo < hi then
      let middle := (lo + hi) / 2
      match t.ranges[middle]? with
      | none => false
      | some (first, last) =>
        if n < first then t.containsBetween n steps lo middle
        else if last < n then t.containsBetween n steps (middle + 1) hi
        else true
    else false

def contains (t : CodeRanges) (c : Char) : Bool :=
  t.containsBetween c.toNat t.ranges.size 0 t.ranges.size

def toList (t : CodeRanges) : List (Nat × Nat) :=
  t.ranges.toList

/-- The number of code points in a set. -/
def count (t : CodeRanges) : Nat :=
  t.toList.foldl (fun n (first, last) => n + (last + 1 - first)) 0

/-- The code points of a set one by one. -/
def codes (t : CodeRanges) : List Nat :=
  t.toList.flatMap fun (first, last) => (List.range (last + 1 - first)).map (first + ·)

/-! ## Sets as a whole -/

/-- The last code point of all. -/
def lastCode : Nat := 0x10FFFF

/-- A range and others that follow in the order of their starts. Ranges that touch become one. -/
def merged : Nat × Nat → List (Nat × Nat) → List (Nat × Nat)
  | current, [] => [current]
  | (first, last), next :: rest =>
    if next.1 ≤ last + 1 then merged (first, max last next.2) rest
    else (first, last) :: merged next rest

/-- The set that ranges in any order cover together. -/
def ofList (ranges : List (Nat × Nat)) : CodeRanges :=
  match ranges.mergeSort fun a b => a.1 ≤ b.1 with
  | [] => ⟨#[]⟩
  | r :: rs => ⟨(merged r rs).toArray⟩

def union (s t : CodeRanges) : CodeRanges :=
  ofList (s.toList ++ t.toList)

/-- What ascending ranges leave out of the code points from `start` on. -/
def gaps (start : Nat) : List (Nat × Nat) → List (Nat × Nat)
  | [] => if start ≤ lastCode then [(start, lastCode)] else []
  | (first, last) :: rest =>
    if start < first then (start, first - 1) :: gaps (last + 1) rest else gaps (last + 1) rest

def complement (t : CodeRanges) : CodeRanges :=
  ⟨(gaps 0 t.toList).toArray⟩

def intersection (s t : CodeRanges) : CodeRanges :=
  (s.complement.union t.complement).complement

def difference (s t : CodeRanges) : CodeRanges :=
  (s.complement.union t).complement

end CodeRanges

/-- Every `step`-th code point from `first` to `last` moves by `shift`. -/
structure CodeShift where
  first : Nat
  last : Nat
  step : Nat
  shift : Int

namespace CodeShift

/-- The code points that move. -/
def sources (s : CodeShift) : List Nat :=
  (List.range ((s.last - s.first) / s.step + 1)).map fun i => s.first + i * s.step

/-- The code points that they move to. -/
def images (s : CodeShift) : List Nat :=
  s.sources.map fun n => (Int.ofNat n + s.shift).toNat

def covers (s : CodeShift) (n : Nat) : Bool :=
  s.first ≤ n && n ≤ s.last && (n - s.first) % s.step == 0

/-- The image of `c`, if the run covers it. -/
def image? (s : CodeShift) (c : Char) : Option Char :=
  if s.covers c.toNat then some (Char.ofNat (c.toNat + s.shift).toNat) else none

/-- The character whose image is `c`, if there is one in the run. -/
def source? (s : CodeShift) (c : Char) : Option Char :=
  let n := (c.toNat - s.shift).toNat
  if s.covers n then some (Char.ofNat n) else none

end CodeShift

end RulesText.Text
