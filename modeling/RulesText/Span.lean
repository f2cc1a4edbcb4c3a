/-!
# Spans

A span is a range of bytes, from its start up to but not including its stop. Spans are ordered
by start, then by stop.
-/

namespace RulesText

structure Span where
  start : Nat
  stop : Nat
deriving DecidableEq, Repr, Inhabited

namespace Span

def length (s : Span) : Nat :=
  s.stop - s.start

def isEmpty (s : Span) : Bool :=
  s.stop ≤ s.start

/-- Whether `t` lies inside `s`. -/
def contains (s t : Span) : Bool :=
  s.start ≤ t.start && t.stop ≤ s.stop

def compare (s t : Span) : Ordering :=
  (Ord.compare s.start t.start).then (Ord.compare s.stop t.stop)

/-- Move a span `n` bytes to the right. -/
def shift (n : Nat) (s : Span) : Span :=
  ⟨n + s.start, n + s.stop⟩

end Span

end RulesText
