import RulesText.Vocabulary.Family

/-!
# Families of the standard vocabulary

The choices that card text offers: colors, card types, zones, quantities and so on. A captured
text is read as the first member that matches it, so the order of a family's members counts.
-/

namespace RulesText.Family

def color : Family where
  name := "color"
  members := [
    ⟨"White", none⟩, ⟨"Blue", none⟩, ⟨"Black", none⟩, ⟨"Red", none⟩, ⟨"Green", none⟩,
    ⟨"Colorless", none⟩, ⟨"Multicolored", none⟩]

/-- Nouns that name a game object. -/
def objectNoun : Family where
  name := "object_noun"
  members := [
    ⟨"Creature", none⟩, ⟨"Artifact", none⟩, ⟨"Enchantment", none⟩, ⟨"Land", none⟩,
    ⟨"Planeswalker", none⟩, ⟨"Battle", none⟩, ⟨"Instant", none⟩, ⟨"Sorcery", none⟩,
    ⟨"Permanent", none⟩, ⟨"Spell", none⟩, ⟨"Card", none⟩, ⟨"Token", none⟩]

def supertype : Family where
  name := "supertype"
  members := [
    ⟨"Basic", none⟩, ⟨"Legendary", none⟩, ⟨"Snow", none⟩]

/-- Determiners in front of an object. -/
def selector : Family where
  name := "selector"
  members := [
    ⟨"AnotherTarget", some "another target"⟩,
    ⟨"UpToTarget", some "up to (?:one|two|three|x) target"⟩, ⟨"Target", none⟩,
    ⟨"Another", none⟩, ⟨"Each", none⟩, ⟨"All", none⟩, ⟨"That", none⟩, ⟨"Other", none⟩,
    ⟨"A", some "an?"⟩]

def controller : Family where
  name := "controller"
  members := [
    ⟨"YouControl", some "you control"⟩, ⟨"YouDontControl", some "you don't control"⟩,
    ⟨"OpponentControls", some "an opponent controls"⟩,
    ⟨"OpponentsControl", some "your opponents control"⟩]

def keyword : Family where
  name := "keyword"
  members := [
    ⟨"FirstStrike", some "first strike"⟩, ⟨"DoubleStrike", some "double strike"⟩,
    ⟨"Flying", none⟩, ⟨"Trample", none⟩, ⟨"Haste", none⟩, ⟨"Vigilance", none⟩,
    ⟨"Deathtouch", none⟩, ⟨"Lifelink", none⟩, ⟨"Reach", none⟩, ⟨"Menace", none⟩,
    ⟨"Hexproof", none⟩, ⟨"Indestructible", none⟩, ⟨"Defender", none⟩, ⟨"Flash", none⟩,
    ⟨"Shroud", none⟩, ⟨"Prowess", none⟩]

def zone : Family where
  name := "zone"
  members := [
    ⟨"Battlefield", none⟩, ⟨"Graveyard", none⟩, ⟨"Hand", none⟩, ⟨"Library", none⟩,
    ⟨"Exile", none⟩, ⟨"Stack", none⟩]

/-- Counts as they are written in rules text. -/
def quantity : Family where
  name := "quantity"
  members := [
    ⟨"A", some "an?"⟩, ⟨"One", none⟩, ⟨"Two", none⟩, ⟨"Three", none⟩, ⟨"Four", none⟩,
    ⟨"Five", none⟩, ⟨"Six", none⟩, ⟨"Seven", none⟩, ⟨"X", none⟩, ⟨"Digits", some "\\d+"⟩]

def player : Family where
  name := "player"
  members := [
    ⟨"You", none⟩, ⟨"TargetPlayer", some "target player"⟩,
    ⟨"TargetOpponent", some "target opponent"⟩, ⟨"EachPlayer", some "each player"⟩,
    ⟨"EachOpponent", some "each opponent"⟩, ⟨"AnOpponent", some "an opponent"⟩,
    ⟨"ThatPlayer", some "that player"⟩]

/-- Who or what receives damage. -/
def recipient : Family where
  name := "recipient"
  members := [
    ⟨"AnyTarget", some "any target"⟩,
    ⟨"TargetCreatureOrPlayer", some "target creature or player"⟩,
    ⟨"TargetCreatureOrPlaneswalker", some "target creature or planeswalker"⟩,
    ⟨"TargetCreature", some "target creature"⟩, ⟨"TargetPlayer", some "target player"⟩,
    ⟨"TargetOpponent", some "target opponent"⟩, ⟨"EachCreature", some "each creature"⟩,
    ⟨"EachOpponent", some "each opponent"⟩, ⟨"EachPlayer", some "each player"⟩]

def action : Family where
  name := "action"
  members := [
    ⟨"Destroy", none⟩, ⟨"Exile", none⟩, ⟨"Sacrifice", none⟩, ⟨"Tap", none⟩, ⟨"Untap", none⟩,
    ⟨"Counter", none⟩]

def lifeDirection : Family where
  name := "life_direction"
  members := [
    ⟨"Gain", some "gains?"⟩, ⟨"Lose", some "loses?"⟩]

def duration : Family where
  name := "duration"
  members := [
    ⟨"UntilEndOfTurn", some "until end of turn"⟩,
    ⟨"UntilYourNextTurn", some "until your next turn"⟩]

def counterKind : Family where
  name := "counter_kind"
  members := [
    ⟨"PlusOne", some "\\+1/\\+1"⟩, ⟨"MinusOne", some "-1/-1"⟩, ⟨"Loyalty", none⟩,
    ⟨"Charge", none⟩, ⟨"Time", none⟩, ⟨"Shield", none⟩]

def timing : Family where
  name := "timing"
  members := [
    ⟨"Whenever", none⟩, ⟨"When", none⟩]

def triggerEvent : Family where
  name := "trigger_event"
  members := [
    ⟨"Enters", some "enters(?: the battlefield)?"⟩, ⟨"Dies", none⟩, ⟨"Attacks", none⟩,
    ⟨"Blocks", none⟩, ⟨"BecomesBlocked", some "becomes blocked"⟩,
    ⟨"DealsCombatDamage", some "deals combat damage to a player"⟩,
    ⟨"CastsSpell", some "casts? an? spell"⟩]

/-- Whose step a phase trigger refers to. -/
def stepOwner : Family where
  name := "step_owner"
  members := [
    ⟨"EachOpponents", some "each opponent's"⟩, ⟨"EachPlayers", some "each player's"⟩,
    ⟨"ThatPlayers", some "that player's"⟩, ⟨"Your", none⟩, ⟨"Each", none⟩, ⟨"The", none⟩]

def step : Family where
  name := "step"
  members := [
    ⟨"Upkeep", none⟩, ⟨"DrawStep", some "draw step"⟩, ⟨"EndStep", some "end step"⟩,
    ⟨"Combat", none⟩, ⟨"PrecombatMain", some "precombat main phase"⟩]

/-- The families of the standard vocabulary. -/
def standard : List Family :=
  [color, objectNoun, supertype, selector, controller, keyword, zone, quantity, player,
   recipient, action, lifeDirection, duration, counterKind, timing, triggerEvent, stepOwner,
   step]

/-- The standard family of a given name. -/
def ofName? (name : Text) : Option Family :=
  standard.find? (·.name == name)

end RulesText.Family
