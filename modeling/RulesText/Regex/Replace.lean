import RulesText.Regex.Searcher

/-!
# Replacing matches

All matches of an expression in a text are replaced from left to right. An empty match is passed
over.
-/

namespace RulesText.Regex.Searcher

/-- The text from `c` on, with `replacement` for every match. -/
def replaceFrom (s : Searcher) (replacement : Text) (c : Cursor) : Text :=
  match _h : c.ahead with
  | [] => []
  | x :: rest =>
    match s.matchAt? c with
    | some m =>
      if m.stop.ahead.length < c.ahead.length then replacement ++ replaceFrom s replacement m.stop
      else x :: replaceFrom s replacement ⟨x :: c.behind, rest, c.offset + x.utf8Size⟩
    | none => x :: replaceFrom s replacement ⟨x :: c.behind, rest, c.offset + x.utf8Size⟩
termination_by c.ahead.length
decreasing_by
  · assumption
  · simp [_h]
  · simp [_h]

def replaceAll (s : Searcher) (replacement t : Text) : Text :=
  replaceFrom s replacement (Cursor.start t)

end RulesText.Regex.Searcher
