import RulesText.Token

/-!
# Coverage

How much of a text the vocabulary explains, in bytes of tokens. Blanks belong to no token and
count for nothing; where there are no tokens at all, everything is explained.
-/

namespace RulesText

structure Coverage where
  matched : Nat := 0
  unmatched : Nat := 0
deriving DecidableEq, Repr

namespace Coverage

def add (a b : Coverage) : Coverage :=
  ⟨a.matched + b.matched, a.unmatched + b.unmatched⟩

instance : Add Coverage := ⟨add⟩

def sum (parts : List Coverage) : Coverage :=
  parts.foldl add {}

def ofToken (t : Token) : Coverage :=
  match t.label with
  | .kind _ => { matched := t.span.length }
  | .unmatched => { unmatched := t.span.length }

def ofTokens (tokens : List Token) : Coverage :=
  sum (tokens.map ofToken)

/-- The matched share, from zero to one. -/
def ratio (c : Coverage) : Float :=
  let total := c.matched + c.unmatched
  if total = 0 then 1.0 else Float.ofNat c.matched / Float.ofNat total

def percent (c : Coverage) : Float :=
  c.ratio * 100.0

end Coverage

end RulesText
