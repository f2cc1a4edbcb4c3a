import RulesText.Text.Basic

/-!
# Templates

A template is written as words between blanks. Inside a word, literal pattern text and `{name}`
placeholders stand side by side. Double quotes at either end of a word, and a final `.`, `,` or
`;`, become snippets of their own, so that the spacing around them can be decided later.

## Main definitions

* `Snippet`: literal parts and placeholders, closing punctuation, or a double quote.
* `Template.parse`: the snippets of a template.
* `Snippet.source`: the text that a snippet was written as.
-/

namespace RulesText

/-- One part of a word. -/
inductive Part where
  /-- Pattern text, kept as it is. -/
  | literal (text : Text)
  /-- A placeholder for the field of that name. -/
  | field (name : Text)
deriving DecidableEq, Repr

inductive Snippet where
  | parts (parts : List Part)
  /-- A `.`, `,` or `;` at the end of a word. -/
  | terminal (mark : Char)
  /-- A double quote at either end of a word. -/
  | quote
deriving DecidableEq, Repr

namespace Part

def source : Part → Text
  | literal text => text
  | field name => '{' :: name ++ ['}']

def field? : Part → Option Text
  | literal _ => none
  | field name => some name

/-- The pattern text of a part; a placeholder has none of its own. -/
def literalText : Part → Text
  | literal text => text
  | field _ => []

end Part

namespace Snippet

def source : Snippet → Text
  | parts ps => ps.flatMap Part.source
  | terminal mark => [mark]
  | quote => ['"']

/-- The name of the placeholder that makes up the whole snippet. -/
def soleField? : Snippet → Option Text
  | parts [.field name] => some name
  | _ => none

/-- The text of a snippet without its placeholders. -/
def literalText : Snippet → Text
  | parts ps => ps.flatMap Part.literalText
  | terminal mark => [mark]
  | quote => ['"']

/-- The number of double quotes in a snippet. -/
def quotes (s : Snippet) : Nat :=
  s.literalText.count '"'

/-- The placeholders of a snippet, from left to right. -/
def fields : Snippet → List Text
  | parts ps => ps.filterMap Part.field?
  | _ => []

def isTerminal : Snippet → Bool
  | terminal _ => true
  | _ => false

end Snippet

namespace Template

/-! ## Placeholders -/

def isNameStart (c : Char) : Bool :=
  c.isLower || c == '_'

def isNameChar (c : Char) : Bool :=
  c.isLower || c.isDigit || c == '_'

/-- A field name at the start of a text that a closing brace ends, with the text after the
brace. -/
def placeholder? (t : Text) : Option (Text × Text) :=
  match t.takeWhile isNameChar, t.dropWhile isNameChar with
  | c :: name, '}' :: rest => if isNameStart c then some (c :: name, rest) else none
  | _, _ => none

theorem placeholder?_length {t name rest : Text} (h : placeholder? t = some (name, rest)) :
    rest.length < t.length := by
  have parted := List.takeWhile_append_dropWhile (p := isNameChar) (l := t)
  unfold placeholder? at h
  split at h
  case h_1 front back =>
    split at h
    · obtain ⟨-, rfl⟩ := Prod.mk.inj (Option.some.inj h)
      rw [← parted, front, back]
      simp
      omega
    · simp at h
  case h_2 => simp at h

/-- Put the literal text gathered so far, latest character first, in front of the parts. -/
def flush (literal : Text) (rest : List Part) : List Part :=
  if literal.isEmpty then rest else .literal literal.reverse :: rest

/-- The parts of a word. `literal` holds the literal text just before, latest character first;
a brace after a backslash opens no placeholder. -/
def splitParts (literal : Text) : (word : Text) → List Part
  | [] => flush literal []
  | c :: word =>
    if c == '{' && literal.head? != some '\\' then
      match _h : placeholder? word with
      | some (name, rest) => flush literal (.field name :: splitParts [] rest)
      | none => splitParts (c :: literal) word
    else splitParts (c :: literal) word
termination_by word => word.length
decreasing_by
  · have := placeholder?_length _h
    simp only [List.length_cons]
    omega
  · simp
  · simp

/-! ## Words -/

def isTerminalMark (c : Char) : Bool :=
  c == '.' || c == ',' || c == ';'

/-- Take closing quotes and punctuation off a word that is given from its end. The snippets come
from left to right; punctuation after a backslash stays. -/
def peelEnd : (reversed : Text) → (closing : List Snippet) → Text × List Snippet
  | [], closing => ([], closing)
  | c :: rest, closing =>
    if c == '"' then peelEnd rest (.quote :: closing)
    else if isTerminalMark c && rest.head? != some '\\' then
      peelEnd rest (.terminal c :: closing)
    else (c :: rest, closing)

/-- The snippets of one word: opening quotes, the word's own parts, closing marks. -/
def parseWord (word : Text) : List Snippet :=
  let opening := word.takeWhile (· == '"')
  let (reversed, closing) := peelEnd (word.drop opening.length).reverse []
  opening.map (fun _ => .quote) ++
    (if reversed.isEmpty then [] else [.parts (splitParts [] reversed.reverse)]) ++ closing

/-- The snippets of a template. -/
def parse (template : Text) : List Snippet :=
  (Text.words template).flatMap parseWord

/-- The placeholders of a template, in order and with repetitions. -/
def placeholders (snippets : List Snippet) : List Text :=
  snippets.flatMap Snippet.fields

end Template

end RulesText
