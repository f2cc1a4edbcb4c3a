import RulesText.Lexicon
import RulesText.Token

/-!
# Reading a line

Phrases are tried in a fixed order: first the kinds of the priority list, then the others by
descending length of their patterns. At each place that is not blank the first phrase that
matches some text there takes it, even where a later one would match more. Text that no phrase
takes is unmatched: a run without blanks and closing punctuation, or one mark of punctuation.

## Main definitions

* `Tokenizer.new`: the order in which a lexicon's phrases are tried.
* `Tokenizer.active`: the phrases that match somewhere in a line. No other phrase can match at
  a place of it, so only these are tried.
* `Tokenizer.tokenize`: the tokens of a line.
-/

namespace RulesText

structure Tokenizer where
  lexicon : Lexicon
  /-- The entries of the lexicon in the order in which they are tried. -/
  order : List LexiconEntry

namespace Tokenizer

/-! ## The order of phrases -/

/-- The entries of a priority list, each once. -/
def prioritized (l : Lexicon) : (done : List LexiconEntry) → List Kind →
    Except Fault (List LexiconEntry)
  | done, [] => .ok done
  | done, kind :: rest =>
    match l.find? kind with
    | none => .error (.undeclaredKind kind)
    | some e =>
      prioritized l (if done.any (·.kind == kind) then done else done ++ [e]) rest

/-- Longer patterns first; patterns of one length keep their order. -/
def longestFirst (entries : List LexiconEntry) : List LexiconEntry :=
  entries.mergeSort fun a b => b.pattern.size ≤ a.pattern.size

/-- The largest footprint of all patterns together. -/
def patternsLimit : Nat := 256 <<< 20

def new (l : Lexicon) (priority : List Kind) : Except Fault Tokenizer := do
  let first ← prioritized l [] priority
  let others := l.entries.filter fun e => !first.any (·.kind == e.kind)
  if !Regex.fitTogether (l.entries.map (·.regex)) patternsLimit then throw .patternsTooLarge
  return { lexicon := l, order := first ++ longestFirst others }

/-! ## Activity -/

/-- Whether each entry of the lexicon matches somewhere in the line, if only an empty text. -/
def active (t : Tokenizer) (line : Text) : List LexiconEntry :=
  t.lexicon.entries.filter (·.search.occursIn line)

/-- The entries that are tried on a line, in order. -/
def candidates (t : Tokenizer) (line : Text) : List LexiconEntry :=
  let kinds := (t.active line).map (·.kind)
  t.order.filter fun e => kinds.contains e.kind

/-! ## Tokens -/

/-- The place where a match of the phrase that starts at `c` ends, if the match is not empty. -/
def claim? (c : Cursor) (e : LexiconEntry) : Option (Label × Cursor) := do
  let stop ← e.search.stopAt? c
  if c.offset < stop.offset then some (.kind e.kind, stop) else none

/-- What unmatched text is taken by, written `[^\s.,;]+|\S`: a run without blanks and closing
punctuation, or else one character that is not blank. -/
def catchAll : Regex :=
  let blank : Regex.CharSet := .named .unicode .space
  let marks : Regex.CharSet :=
    .union (.union (.union (.union .none blank) (.range '.' '.')) (.range ',' ','))
      (.range ';' ';')
  .alt (.repetition (.one .exact (.bracket true marks)) 1 none true)
    (.one .exact (.bracket true blank))

/-- The end of an unmatched token. Where there is only a blank, it is that. -/
def unmatchedEnd (c : Cursor) : Cursor :=
  (catchAll.finder.stopAt? c).getD ((c.next?.map (·.2)).getD c)

/-- The token that starts at a place, and the place where it ends. -/
def tokenAt (entries : List LexiconEntry) (c : Cursor) : Label × Cursor :=
  (entries.findSome? (claim? c)).getD (.unmatched, unmatchedEnd c)

/-- The tokens from a place on. Every token takes at least one character. -/
def tokensFrom (entries : List LexiconEntry) (c : Cursor) : List Token :=
  match _h : c.ahead with
  | [] => []
  | x :: rest =>
    if Text.isBlank x then
      tokensFrom entries ⟨x :: c.behind, rest, c.offset + x.utf8Size⟩
    else
      let (label, stop) := tokenAt entries c
      if stop.ahead.length < c.ahead.length then
        ⟨label, c.spanTo stop⟩ :: tokensFrom entries stop
      else []
termination_by c.ahead.length
decreasing_by
  · simp [_h]
  · assumption

/-- The tokens of a line, from left to right. -/
def tokenize (t : Tokenizer) (line : Text) : List Token :=
  tokensFrom (t.candidates line) (Cursor.start line)

end Tokenizer

end RulesText
