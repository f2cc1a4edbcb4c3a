import RulesText.Text.Lowercase

/-!
# Choice families

A choice family is a named list of members, of which a field captures one. A member matches its
own pattern, or its lowercased name if it has none.
-/

namespace RulesText

structure Member where
  name : Text
  /-- A pattern other than the lowercased name. -/
  override? : Option Text := none
deriving DecidableEq, Repr

/-- The regular expression that the member is read with. -/
def Member.source (m : Member) : Text :=
  m.override?.getD (Text.lowercase m.name)

/-- Members are tried in order when a captured text is read back. -/
structure Family where
  name : Text
  members : List Member
deriving DecidableEq, Repr

def Family.sources (f : Family) : List Text :=
  f.members.map Member.source

end RulesText
