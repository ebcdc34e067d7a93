import LightShow.Layout.Standard
import LightShow.Project.Basic

namespace LightShow

/-!
# Projects to start from

* `Suit.standard` — a suit with the standard wiring;
* `Project.starter` — five such suits and no cues;
* `Project.demo` — the same with two cues.
-/

/-- A suit with the standard wiring. -/
def Suit.standard (id : UInt8) (name : String) : Suit where
  id := id
  name := name
  ledCount := Layout.standard.ledCount
  parts := Layout.standard.partCounts

namespace Project

/-- Five standard suits and no cues. -/
def starter (duration : UInt32) : Project where
  suits := [.standard 0 "Dancer 1", .standard 1 "Dancer 2", .standard 2 "Dancer 3",
    .standard 3 "Dancer 4", .standard 4 "Dancer 5"]
  cues := []
  duration := duration
  version := currentVersion

/-- The standard suits with a red first suit and a chase over the third one's face. -/
def demo : Project :=
  { starter 30000 with
    cues := [
      .plain "1" 0 .solid 1000 2000 ⟨0xff, 0, 0⟩ 0 541,
      { Cue.plain "2" 2 .chase 2500 3000 ⟨0x00, 0xd9, 0xff⟩ 143 183 with
        secondaryColor := some .black
        speed := some 5 }] }

end Project

end LightShow
