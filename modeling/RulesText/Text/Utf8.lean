import RulesText.Text.CodeRanges

/-!
# Bytes of code points

The UTF-8 forms of a set of code points, as sequences of byte ranges: a sequence stands for all
ways to choose one byte from each of its ranges. A leading byte holds what is left of the code
point after every following byte has taken six bits.

## Main definitions

* `Utf8.sequences`: the sequences of a set, in ascending order.
-/

namespace RulesText.Text.Utf8

/-- A closed range of bytes. -/
abbrev ByteRange := Nat × Nat

/-- The sequences for the numbers from `lo` to `hi` in one byte that is raised by `mark` and `n`
following ones: as few as possible, each with full ranges after a range of more than one byte. -/
def spell : (n mark lo hi : Nat) → List (List ByteRange)
  | 0, mark, lo, hi => [[(mark + lo, mark + hi)]]
  | n + 1, mark, lo, hi =>
    let block := 1 <<< (6 * (n + 1))
    let within (lead lo hi : Nat) := (spell n 0x80 lo hi).map ((mark + lead, mark + lead) :: ·)
    let (a, b) := (lo / block, hi / block)
    if a = b then within a (lo % block) (hi % block)
    else
      let (front, a) :=
        if lo % block = 0 then ([], a) else (within a (lo % block) (block - 1), a + 1)
      let (back, b) :=
        if hi % block = block - 1 then ([], b + 1) else (within b 0 (hi % block), b)
      let middle :=
        if a < b then [(mark + a, mark + b - 1) :: List.replicate (n + 1) (0x80, 0xBF)] else []
      front ++ middle ++ back

/-- A stretch of code points whose forms have a mark and a number of following bytes in
common. -/
structure Form where
  first : Nat
  last : Nat
  following : Nat
  mark : Nat

/-- The forms of all code points that are characters. -/
def forms : List Form := [
  ⟨0x0, 0x7F, 0, 0⟩, ⟨0x80, 0x7FF, 1, 0xC0⟩, ⟨0x800, 0xD7FF, 2, 0xE0⟩, ⟨0xE000, 0xFFFF, 2, 0xE0⟩,
  ⟨0x10000, 0x10FFFF, 3, 0xF0⟩]

/-- The sequences of a range of code points. -/
def ofRange (first last : Nat) : List (List ByteRange) :=
  forms.flatMap fun f =>
    let (lo, hi) := (max first f.first, min last f.last)
    if lo ≤ hi then spell f.following f.mark lo hi else []

def sequences (t : CodeRanges) : List (List ByteRange) :=
  t.toList.flatMap fun (first, last) => ofRange first last

end RulesText.Text.Utf8
