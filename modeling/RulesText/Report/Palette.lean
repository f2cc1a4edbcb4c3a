import RulesText.Text.Basic

/-!
# Painted text

A palette paints text with terminal escape sequences, or leaves it as it is.
-/

namespace RulesText

inductive Color where
  | green
  | yellow
  | blue
  | cyan
  | gray
deriving DecidableEq, Repr

/-- The sequence that sets a display attribute. -/
def escapeSequence (code : Text) : Text :=
  "\x1b[" ++ code ++ ['m']

def Color.code : Color → Text
  | green => "32"
  | yellow => "33"
  | blue => "34"
  | cyan => "36"
  | gray => "90"

structure Palette where
  enabled : Bool
deriving DecidableEq, Repr

namespace Palette

/-- Set an attribute for a text and reset all attributes after it. -/
def wrap (p : Palette) (code t : Text) : Text :=
  if p.enabled then escapeSequence code ++ t ++ escapeSequence "0" else t

@[simp] theorem wrap_disabled (code t : Text) : (Palette.mk false).wrap code t = t := rfl

def paint (p : Palette) (color : Color) (t : Text) : Text :=
  p.wrap color.code t

def bold (p : Palette) (t : Text) : Text :=
  p.wrap "1" t

def dim (p : Palette) (t : Text) : Text :=
  p.wrap "2" t

end Palette

end RulesText
