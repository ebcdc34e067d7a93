import LightShow.Cue
import LightShow.NameTable

namespace LightShow

/-!
# Projects

* `Suit` — a costume with its LEDs;
* `Project` — suits, cues and the length of the show;
* `Project.suit?`, `Project.cuesFor` — the first suit with an id, and the cues for a suit.
-/

/-- A costume. -/
structure Suit where
  /-- The number by which cues and events name the suit. -/
  id : UInt8
  /-- The name that the editor shows. -/
  name : String
  /-- The number of LEDs. -/
  ledCount : UInt16
  /-- The number of LEDs on every part of the body, for information. -/
  parts : NameTable UInt32
  deriving DecidableEq

/-- A show to be compiled. -/
structure Project where
  /-- The suits. Events come in their order. -/
  suits : List Suit
  /-- The cues, in the order of their creation. -/
  cues : List Cue
  /-- The length of the show in milliseconds. -/
  duration : UInt32
  /-- The version of the format. -/
  version : String
  deriving DecidableEq

namespace Project

/-- The version of the format that new projects have. -/
def currentVersion : String := "1.0.0"

/-- The first suit with an id. -/
def suit? (p : Project) (id : UInt8) : Option Suit := p.suits.find? (·.id == id)

/-- The cues for a suit, in their order. -/
def cuesFor (p : Project) (suitId : UInt8) : List Cue := p.cues.filter (·.suitId == suitId)

end Project

end LightShow
