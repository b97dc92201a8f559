import Esoteric.Direction

namespace Esoteric

/-- An endless supply of random draws, with the number already made. A draw may
fail to give a direction. -/
structure Chance where
  draws : Nat → Option Direction
  drawn : Nat := 0

namespace Chance

instance : Inhabited Chance := ⟨⟨fun _ => some .left, 0⟩⟩

def next (chance : Chance) : Option Direction :=
  chance.draws chance.drawn

def rest (chance : Chance) : Chance :=
  { chance with drawn := chance.drawn + 1 }

/-- The direction with a compass number; negative ones count from the end. -/
def numbered (number : Int) : Option Direction :=
  match number with
  | .ofNat number => Direction.compass[number]?
  | .negSucc number => Direction.compass.reverse[number]?

def repeating (numbers : Array Int) : Chance where
  draws turn := numbers[turn % numbers.size]?.bind numbered

def seeded (seed : UInt64) : Chance where
  draws turn :=
    let state :=
      (seed + turn.toUInt64) * 6364136223846793005 + 1442695040888963407
    let mixed := (state ^^^ (state >>> 29)) * 0xBF58476D1CE4E5B9
    numbered (mixed >>> 62).toNat

end Chance

end Esoteric
