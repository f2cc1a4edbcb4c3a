import RulesText.Text.Basic

/-!
# Kinds of phrase

The closed list of phrases that rules text is made of. A kind has a name in snake case, which
messages and reports use, and a place in the declaration order, which breaks ties.
-/

namespace RulesText

/-- What a stretch of rules text can be recognized as. -/
inductive Kind where
  | selfRef
  | manaSymbols
  | activationCost
  | loyaltyCost
  | equip
  | addMana
  | keyword
  | colorFilter
  | objectRef
  | powerToughness
  | removal
  | bounce
  | drawCards
  | discardCards
  | dealDamage
  | lifeChange
  | ptModifier
  | gainKeyword
  | timing
  | event
  | phaseTrigger
  | putCounters
  | createToken
  | quotedAbility
  | searchLibrary
  | shuffle
  | youMay
  | punctuation
deriving DecidableEq, Repr, Inhabited

namespace Kind

/-- Every kind, in declaration order. -/
def all : List Kind :=
  [.selfRef, .manaSymbols, .activationCost, .loyaltyCost, .equip, .addMana, .keyword,
   .colorFilter, .objectRef, .powerToughness, .removal, .bounce, .drawCards, .discardCards,
   .dealDamage, .lifeChange, .ptModifier, .gainKeyword, .timing, .event, .phaseTrigger,
   .putCounters, .createToken, .quotedAbility, .searchLibrary, .shuffle, .youMay,
   .punctuation]

/-- The place of a kind in the declaration order. -/
def rank (k : Kind) : Nat :=
  all.idxOf k

def name : Kind → Text
  | selfRef => "self_ref"
  | manaSymbols => "mana_symbols"
  | activationCost => "activation_cost"
  | loyaltyCost => "loyalty_cost"
  | equip => "equip"
  | addMana => "add_mana"
  | keyword => "keyword"
  | colorFilter => "color_filter"
  | objectRef => "object_ref"
  | powerToughness => "power_toughness"
  | removal => "removal"
  | bounce => "bounce"
  | drawCards => "draw_cards"
  | discardCards => "discard_cards"
  | dealDamage => "deal_damage"
  | lifeChange => "life_change"
  | ptModifier => "pt_modifier"
  | gainKeyword => "gain_keyword"
  | timing => "timing"
  | event => "event"
  | phaseTrigger => "phase_trigger"
  | putCounters => "put_counters"
  | createToken => "create_token"
  | quotedAbility => "quoted_ability"
  | searchLibrary => "search_library"
  | shuffle => "shuffle"
  | youMay => "you_may"
  | punctuation => "punctuation"

def ofName? (name : Text) : Option Kind :=
  all.find? (·.name == name)

theorem mem_all (k : Kind) : k ∈ all := by
  cases k <;> decide

theorem all_nodup : all.Nodup := by
  decide

end Kind

end RulesText
