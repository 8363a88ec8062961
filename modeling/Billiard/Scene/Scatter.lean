import Billiard.Random.Pcg
import Billiard.Scene.Basic

/-!
Random scenes: balls of random sizes scattered over the standard rectangle, each tried in random
places until it is clear of the ones before it. What numbers are drawn is left to a source, so that
all that is said here holds for every source.
-/

namespace Billiard.Scene

variable {K G : Type} [Scalar K]

/-- Draws a number from the first up to and without the second. -/
abbrev Draw (K G : Type) := G → K → K → K × G

/-- How often a place is tried before a ball is left out. -/
def tries : Nat := 100

/-- Whether a disc comes nearer than one unit to a ball. -/
def crowds (centre : Vec K) (radius : K) (ball : Ball K) : Bool :=
  centre.dist ball.position ≤ ball.radius + radius + 1.0

/-- A disc in the standard rectangle, at least one unit inside it. -/
def drawDisc (draw : Draw K G) (source : G) : (Vec K × K) × G :=
  let frame : Frame K := standardFrame
  let (radius, source) := draw source 4.0 12.0
  let (x, source) :=
    draw source (frame.left + radius + 1.0) (frame.left + frame.width - radius - 1.0)
  let (y, source) :=
    draw source (frame.top + radius + 1.0) (frame.top + frame.height - radius - 1.0)
  ((⟨x, y⟩, radius), source)

/-- A velocity in any direction. -/
def drawVelocity (draw : Draw K G) (source : G) : Vec K × G :=
  let (heading, source) := draw source 0.0 (2.0 * Scalar.pi)
  let (speed, source) := draw source 40.0 200.0
  (⟨speed * Scalar.cos heading, speed * Scalar.sin heading⟩, source)

/-- Tries at most so often to find a place for one more ball. -/
def drawBall? (draw : Draw K G) (balls : List (Ball K)) :
    (tries : Nat) → G → Option (Ball K) × G
  | 0, source => (none, source)
  | tries + 1, source =>
    let ((centre, radius), source) := drawDisc draw source
    if balls.any (crowds centre radius) then drawBall? draw balls tries source
    else
      let (velocity, source) := drawVelocity draw source
      (some ⟨centre, velocity, radius⟩, source)

/-- Adds at most so many balls behind the ones that are there. -/
def scatterOnto (draw : Draw K G) (balls : List (Ball K)) : (count : Nat) → G → List (Ball K)
  | 0, _ => balls
  | count + 1, source =>
    match drawBall? draw balls tries source with
    | (none, source) => scatterOnto draw balls count source
    | (some ball, source) => scatterOnto draw (balls ++ [ball]) count source

/-- The bytes that a ball takes up in a list that is set aside for balls: five numbers of eight. -/
def ballBytes : Nat := 40

/-- The greatest number of balls that a list can be set aside for: its bytes are counted by a signed
word. Whether a machine has as many is not asked. -/
def room : Nat := (Nat.pow 2 63 - 1) / ballBytes

/-- The standard scene with at most `count` scattered balls instead of its own, and a note if some
were left out. Room for all of them is set aside before the first is drawn, however few there will
be; there is no scene if that cannot be done. -/
def scatter (draw : Draw K G) (count : Nat) (source : G) : Option (Scene K × List (Note K)) :=
  if room < count then none
  else
    let balls := scatterOnto draw [] count source
    let scene : Scene K := standard
    some ({ scene with table := { scene.table with balls := balls } },
      if balls.length < count then [.crowded balls.length count] else [])

/-- The scene of a seed. -/
def ofSeed (seed : UInt64) (count : Nat) : Option (Scene Float × List (Note Float)) :=
  scatter Pcg.range count (Pcg.ofSeed seed)

end Billiard.Scene
