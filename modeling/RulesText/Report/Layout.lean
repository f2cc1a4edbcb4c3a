import RulesText.Coverage
import RulesText.Report.Decimal
import RulesText.Report.Palette

/-!
# Layout of reports

A report is a list of lines. Sections begin with an empty line and a title between rules.
-/

namespace RulesText.Report

/-- The text of a report: every line ends with a line feed. -/
def render (lines : List Text) : Text :=
  lines.flatMap (· ++ ['\n'])

/-- The title of a section. -/
def heading (p : Palette) (title : Text) : List Text :=
  [[], p.paint .gray ("━━━ " ++ title ++ " ━━━")]

/-- The title of a whole report. -/
def title (p : Palette) (t : Text) : List Text :=
  [[], p.bold (p.paint .cyan ("⚙  " ++ t))]

def indented (depth : Nat) (t : Text) : Text :=
  List.replicate (2 * depth) ' ' ++ t

def inQuotes (t : Text) : Text :=
  '"' :: t ++ ['"']

/-- How much is explained, in percent and in bytes. Full coverage is green. -/
def coverage (p : Palette) (c : Coverage) : Text :=
  let color := if c.percent ≥ 100.0 then Color.green else Color.yellow
  let bytes := "(" ++ Text.ofNat c.matched ++ " matched / " ++ Text.ofNat c.unmatched ++
    " unmatched bytes)"
  p.dim "coverage:" ++ " " ++ p.paint color (Decimal.tenths c.percent ++ "%") ++ "  " ++
    p.dim bytes

end RulesText.Report
