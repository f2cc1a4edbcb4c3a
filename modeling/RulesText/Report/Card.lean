import RulesText.Analysis.Line
import RulesText.Report.Layout

/-!
# The report of a card

For every line: its text, its tokens, the trees of its captures, its gaps and its coverage; at
the end the coverage of the card.
-/

namespace RulesText.Report

def tokenLine (p : Palette) (line : Text) (t : Token) : Text :=
  let range := Text.padStart 3 (Text.ofNat t.span.start) ++ ".." ++
    Text.padEnd 3 (Text.ofNat t.span.stop)
  let (label, color) : Text × Color := match t.label with
    | .kind kind => (p.paint .blue kind.name, .green)
    | .unmatched => (p.paint .yellow "unmatched", .yellow)
  indented 1 (Text.unwords
    [p.paint .gray range, label, p.dim "│", p.paint color (t.text line)])

/-! ## Capture trees -/

def captureValue (p : Palette) : CaptureValue → Text
  | .choice family member _ => p.paint .green (family ++ "::" ++ member)
  | .flag true => p.paint .green "true"
  | .flag false => p.paint .gray "false"
  | .text text => p.paint .green (inQuotes text)
  | .child _ => p.dim "↓"

/-- A field, and below it the lines of the tree that it holds; `below` are those of all
children. -/
def fieldLines (p : Palette) (depth : Nat) (below : List (List Text)) (f : CaptureField) :
    List Text :=
  let name := p.paint .blue (f.name ++ [':'])
  let nested := match f.value with
    | .child index => (below[index]?).getD []
    | _ => []
  indented (depth + 1) (Text.unwords [name, captureValue p f.value]) :: nested

mutual

def captureLines (p : Palette) (line : Text) (depth : Nat) : Capture → List Text
  | ⟨kind, span, fields, children⟩ =>
    let range := Text.ofNat span.start ++ ".." ++ Text.ofNat span.stop
    let below := childLines p line (depth + 2) children
    indented depth (Text.unwords [
      p.bold (p.paint .cyan kind.name),
      p.paint .yellow range,
      p.dim (inQuotes (Text.slice line span))]) ::
      fields.flatMap (fieldLines p depth below)

def childLines (p : Palette) (line : Text) (depth : Nat) : List Capture → List (List Text)
  | [] => []
  | t :: rest => captureLines p line depth t :: childLines p line depth rest

end

/-! ## Lines -/

def gapLine (p : Palette) (g : Gap) : Text :=
  indented 2 (Text.unwords [
    p.paint .gray g.before.label,
    p.bold (p.paint .yellow g.text),
    p.paint .gray g.after.label])

/-- Lines below a caption. There is no caption without lines. -/
def captioned (caption : Text) : (lines : List Text) → List Text
  | [] => []
  | lines => [] :: indented 1 caption :: lines

def lineLines (p : Palette) (l : LineAnalysis) : List Text :=
  indented 1 (p.dim l.text) ::
    if l.text.isEmpty then [indented 1 (p.dim "(empty line)")]
    else
      l.tokens.map (tokenLine p l.text) ++
        captioned (p.paint .blue "Captures:") (l.captures.flatMap (captureLines p l.text 2)) ++
        captioned (p.paint .yellow "Unmatched:") (l.gaps.map (gapLine p)) ++
        [indented 1 (coverage p l.coverage)]

def cardTitle (name : Text) : Text :=
  if name.isEmpty then "Scanning" else "Scanning: " ++ inQuotes name

def cardLines (p : Palette) (card : CardAnalysis) (kinds : Nat) : List Text :=
  title p (cardTitle card.name) ++
    [indented 1 (p.dim (Text.ofNat kinds ++ " variants compiled"))] ++
    card.lines.zipIdx.flatMap (fun (l, place) =>
      heading p ("Line " ++ Text.ofNat place) ++ lineLines p l) ++
    heading p "Coverage" ++ [indented 1 (coverage p card.coverage), []]

/-- The report of a card that was analyzed with a vocabulary of so many kinds. -/
def ofCard (card : CardAnalysis) (kinds : Nat) (color : Bool) : Text :=
  render (cardLines { enabled := color } card kinds)

end RulesText.Report
