import Cordyceps.Foundations.JsString

/-!
# Agent names

The name generator of `core/names.ts`: an adjective and a noun, drawn at random.
The draws are positions in the two tables.
-/

namespace Cordyceps.Core

open Foundations

def adjectives : List String :=
  ["brave", "calm", "clever", "cosmic", "crispy", "dapper", "dizzy", "dreamy", "eager", "fancy",
    "feral", "fierce", "fluffy", "frosty", "funky", "gentle", "giddy", "glossy", "goofy",
    "grand", "grumpy", "happy", "hasty", "hazy", "hefty", "humble", "hungry", "icy", "jazzy",
    "jolly", "keen", "lazy", "lively", "lucky", "mellow", "mighty", "misty", "moody", "nimble",
    "noble", "peppy", "plucky", "proud", "quiet", "rapid", "regal", "rowdy", "rusty", "salty",
    "sassy", "shiny", "silly", "sleepy", "slick", "snappy", "sneaky", "spicy", "steady",
    "stormy", "sunny", "swift", "tender", "tiny", "tough", "tricky", "vivid", "wacky", "warm",
    "wild", "witty", "zappy", "zen"]

def nouns : List String :=
  ["badger", "beetle", "bobcat", "bunny", "capybara", "chameleon", "cheetah", "cobra", "condor",
    "corgi", "coyote", "crane", "crow", "dingo", "dolphin", "donkey", "eagle", "falcon",
    "ferret", "finch", "firefly", "flamingo", "fox", "frog", "gecko", "goose", "gopher", "hawk",
    "hedgehog", "heron", "hornet", "hound", "ibis", "iguana", "impala", "jackal", "jaguar",
    "jay", "koala", "lemur", "leopard", "lobster", "lynx", "macaw", "mantis", "marmot", "moose",
    "narwhal", "newt", "ocelot", "octopus", "orca", "osprey", "otter", "owl", "panther",
    "parrot", "pelican", "penguin", "pika", "puma", "quail", "raven", "salmon", "scorpion",
    "seal", "shark", "sloth", "sparrow", "squid", "starling", "stork", "sturgeon", "swan",
    "tapir", "toucan", "turtle", "viper", "walrus", "weasel", "wolf", "wombat", "wren", "yak",
    "zebra"]

/-- The two random positions of one `generateName` call. -/
structure NameDraw where
  adjective : Fin adjectives.length
  noun : Fin nouns.length

/-- `generateName`. -/
def generateName (draw : NameDraw) : JsString :=
  js (adjectives.get draw.adjective) ++ js "-" ++ js (nouns.get draw.noun)

end Cordyceps.Core
