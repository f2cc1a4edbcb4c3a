import RulesText.Gap.Basic

/-!
# Options of an analysis
-/

namespace RulesText

structure Options where
  /-- Read matched tokens back into capture trees. -/
  captures : Bool := true
  /-- The least number of unmatched tokens that make a gap: 1 or 2. -/
  leastRun : Nat := 1
  /-- Drop parenthesized reminder text. -/
  stripReminders : Bool := false
  /-- Cards may be analyzed side by side. The result is the same. -/
  parallel : Bool := true
deriving DecidableEq, Repr

def Options.check (o : Options) : Except Fault Unit :=
  Gap.checkRunLength o.leastRun

end RulesText
