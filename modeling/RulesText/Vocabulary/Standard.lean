import RulesText.Vocabulary.Phrase
import RulesText.Vocabulary.StandardFamilies

/-!
# The standard vocabulary

One phrase for every kind, in the order in which the kinds are tried when their patterns
are equally long: costs, objects, effects, triggers.
-/

namespace RulesText.Vocabulary

open Family

/-! ## Costs and mana -/

/-- Mana and tap symbols in a row, such as two generic and a blue one. -/
def manaSymbols : Phrase where
  kind := .manaSymbols
  template := "{symbols}"
  fields := [.words "symbols" ["(?:\\\x7b[wubrgcxts0-9/]+\\\x7d)+"]]

def activationCost : Phrase where
  kind := .activationCost
  template := "{cost}:"
  fields := [.nested "cost" .manaSymbols]

/-- `+1:`, `−3:`, `0:` -/
def loyaltyCost : Phrase where
  kind := .loyaltyCost
  template := "{cost}:"
  fields := [.words "cost" ["[+−-]?(?:\\d+|x)"]]
  reading := .loyaltyCost

def equip : Phrase where
  kind := .equip
  template := "equip {cost}"
  fields := [.nested "cost" .manaSymbols]

def addMana : Phrase where
  kind := .addMana
  template := "add {mana}"
  fields := [.nested "mana" .manaSymbols]

/-! ## Objects and their attributes -/

/-- The card's own name, which the normal form of a text writes as `~`. -/
def selfRef : Phrase where
  kind := .selfRef
  template := "~"

def keyword : Phrase where
  kind := .keyword
  template := "{keyword}"
  fields := [.choice "keyword" Family.keyword]

/-- `white`, `nonblack`, `non-green` -/
def colorFilter : Phrase where
  kind := .colorFilter
  template := "{non}{color}"
  fields := [.flag "non" ["non-?"], .choice "color" color]

/-- `target creature`, `another nonblack creature you control`, `all legendary artifacts` -/
def objectRef : Phrase where
  kind := .objectRef
  template := "{selector} {supertype} {filter} {noun} {card} {controller}"
  fields := [
    (.choice "selector" selector : Field).optional,
    (.choice "supertype" supertype : Field).optional,
    (.nested "filter" .colorFilter : Field).optional,
    (.choice "noun" objectNoun : Field).plural,
    .flag "card" ["cards?"],
    (.choice "controller" controller : Field).optional]

/-- `2/2`, `+1/+1`, `x/x`, `*/*` -/
def powerToughness : Phrase where
  kind := .powerToughness
  template := "{power}/{toughness}"
  fields := [
    .words "power" ["[+-]?(?:\\d+|x|\\*)"],
    .words "toughness" ["[+-]?(?:\\d+|x|\\*)"]]

/-! ## Effects -/

/-- `destroy target creature`, `exile all enchantments` -/
def removal : Phrase where
  kind := .removal
  template := "{action} {object}"
  fields := [.choice "action" action, .nested "object" .objectRef]

/-- `return target creature to its owner's hand` -/
def bounce : Phrase where
  kind := .bounce
  template := "return {object} to (?:its|their) (?:owner's|owners') {zone}"
  fields := [.nested "object" .objectRef, (.choice "zone" zone : Field).plural]

/-- `draw a card`, `target player draws two cards` -/
def drawCards : Phrase where
  kind := .drawCards
  template := "{player} draws? {count} cards?"
  fields := [(.choice "player" player : Field).optional, .choice "count" quantity]

def discardCards : Phrase where
  kind := .discardCards
  template := "{player} discards? {count} cards?"
  fields := [(.choice "player" player : Field).optional, .choice "count" quantity]

/-- `deals 3 damage to any target` -/
def dealDamage : Phrase where
  kind := .dealDamage
  template := "deals {amount} damage to {recipient}"
  fields := [.choice "amount" quantity, .choice "recipient" recipient]

/-- `you gain 3 life`, `each opponent loses 1 life` -/
def lifeChange : Phrase where
  kind := .lifeChange
  template := "{player} {direction} {amount} life"
  fields := [
    (.choice "player" player : Field).optional,
    .choice "direction" lifeDirection,
    .choice "amount" quantity]

/-- `gets +2/+2 until end of turn` -/
def ptModifier : Phrase where
  kind := .ptModifier
  template := "gets? {pt} {duration}"
  fields := [.nested "pt" .powerToughness, (.choice "duration" duration : Field).optional]

/-- `gains flying until end of turn`, `has haste` -/
def gainKeyword : Phrase where
  kind := .gainKeyword
  template := "{verb} {keyword} {duration}"
  fields := [
    .words "verb" ["gains?", "has", "have"],
    .choice "keyword" Family.keyword,
    (.choice "duration" duration : Field).optional]

/-- `put a +1/+1 counter on target creature` -/
def putCounters : Phrase where
  kind := .putCounters
  template := "put {count} {counter} counters? on {object}"
  fields := [
    .choice "count" quantity,
    .choice "counter" counterKind,
    (.nested "object" .objectRef : Field).optional]

/-- `create a 1/1 white soldier creature token` -/
def createToken : Phrase where
  kind := .createToken
  template := "create {count} {pt} {color} {subtype} creature tokens?"
  fields := [
    .choice "count" quantity,
    .nested "pt" .powerToughness,
    (.choice "color" color : Field).optional,
    .words "subtype" ["[a-z]+"]]

/-- An ability in quotes, as in `with "flying."` -/
def quotedAbility : Phrase where
  kind := .quotedAbility
  template := "with \"{text}\""
  fields := [.words "text" ["[^\"]+"]]

def searchLibrary : Phrase where
  kind := .searchLibrary
  template := "search your library for {object}"
  fields := [.nested "object" .objectRef]

/-- `shuffle`, `then shuffle your library` -/
def shuffle : Phrase where
  kind := .shuffle
  template := "{then} shuffle {library}"
  fields := [.flag "then" ["then"], .flag "library" ["your library"]]

def youMay : Phrase where
  kind := .youMay
  template := "you may"

def punctuation : Phrase where
  kind := .punctuation
  template := "{mark}"
  fields := [.words "mark" ["[.,;:]"]]

/-! ## Triggers -/

def timing : Phrase where
  kind := .timing
  template := "{timing}"
  fields := [.choice "timing" Family.timing]

/-- `enters the battlefield`, `dies`, `deals combat damage to a player` -/
def event : Phrase where
  kind := .event
  template := "{event}"
  fields := [.choice "event" triggerEvent]

/-- `at the beginning of your upkeep` -/
def phaseTrigger : Phrase where
  kind := .phaseTrigger
  template := "at the beginning of {owner} {step}"
  fields := [.choice "owner" stepOwner, .choice "step" step]

/-! ## The table -/

def standard : Vocabulary :=
  [manaSymbols, activationCost, loyaltyCost, equip, addMana,
   selfRef, keyword, colorFilter, objectRef, powerToughness,
   removal, bounce, drawCards, discardCards, dealDamage, lifeChange, ptModifier, gainKeyword,
   putCounters, createToken, quotedAbility, searchLibrary, shuffle, youMay, punctuation,
   timing, event, phaseTrigger]

/-- Kinds that are tried before all others. A cost outranks the symbols it consists of, so
that its colon is not left over. -/
def standardPriority : List Kind :=
  [.activationCost, .loyaltyCost, .phaseTrigger]

/-- The standard phrase of a kind. -/
def standardOf? (kind : Kind) : Option Phrase :=
  standard.find? (·.kind == kind)

end RulesText.Vocabulary
