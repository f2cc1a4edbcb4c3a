import RulesText.Text.Basic

/-!
# Cursors

A cursor is a place between two characters of a text. It keeps the characters on both sides, so
that conditions on the neighbours can be checked, and its distance in bytes from the start.
-/

namespace RulesText

structure Cursor where
  /-- The characters before the place, nearest first. -/
  behind : Text
  /-- The characters after the place. -/
  ahead : Text
  /-- The number of bytes before the place. -/
  offset : Nat
deriving DecidableEq, Repr

namespace Cursor

/-- The place before the first character. -/
def start (t : Text) : Cursor :=
  ⟨[], t, 0⟩

/-- The next character and the place after it. -/
def next? (c : Cursor) : Option (Char × Cursor) :=
  match c.ahead with
  | [] => none
  | x :: rest => some (x, ⟨x :: c.behind, rest, c.offset + x.utf8Size⟩)

theorem ahead_of_next? {c d : Cursor} {x : Char} (h : c.next? = some (x, d)) :
    c.ahead = x :: d.ahead := by
  unfold next? at h
  split at h
  · simp at h
  · rename_i eq
    obtain ⟨rfl, rfl⟩ := Prod.mk.inj (Option.some.inj h)
    exact eq

/-- Every place of the text from `c` on, the end included. -/
def places (c : Cursor) : List Cursor :=
  go c.ahead c
where
  go : Text → Cursor → List Cursor
    | [], c => [c]
    | x :: rest, c => c :: go rest ⟨x :: c.behind, rest, c.offset + x.utf8Size⟩

/-- The span between two places of one text. -/
def spanTo (c d : Cursor) : Span :=
  ⟨c.offset, d.offset⟩

def atStart (c : Cursor) : Bool :=
  c.behind.isEmpty

def atEnd (c : Cursor) : Bool :=
  c.ahead.isEmpty

/-- Whether there is a character before the place, and it is in a class. -/
def behindIs (c : Cursor) (cls : Char → Bool) : Bool :=
  c.behind.head?.any cls

/-- Whether there is a character after the place, and it is in a class. -/
def aheadIs (c : Cursor) (cls : Char → Bool) : Bool :=
  c.ahead.head?.any cls

end Cursor

end RulesText
