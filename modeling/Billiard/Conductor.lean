import Billiard.Agent

/-!
The conductor keeps the table moving. It waits for exactly one event at a time: the next contact,
if that comes strictly before the next beat, and otherwise the beat. On every such event it lets
the balls drift for the time that has passed, does what the event calls for, and then waits for the
next one. On a beat it draws the table; keys turn the turret in between.
-/

namespace Billiard

/-- The turret's edges, each corner to the next. -/
def Turret.edges {K : Type} [Scalar K] (turret : Turret K) : List (Mark K) :=
  let (left, right, front) := turret.corners
  [.line left right, .line right front, .line front left]

/-- Everything on the table as marks: the walls, then the balls, then the turret. -/
def Table.marks {K : Type} [Scalar K] (table : Table K) : List (Mark K) :=
  table.walls.map (fun wall => .line wall.start wall.finish)
    ++ table.balls.map (fun ball => .circle ball.position ball.radius)
    ++ table.turret.edges

/-- The strokes of one frame that shows the table. -/
def Table.frame {K : Type} [Scalar K] (table : Table K) : List (Stroke K) :=
  .wipe :: (table.marks.map .mark ++ [.present])

/-- What a conductor is waiting for. -/
inductive Phase where
  /-- Nothing: it has not started, or it has stalled. -/
  | idle
  | contact
  | beat
deriving DecidableEq, Repr

/-- The word for a phase in reports. -/
def Phase.label : Phase → String
  | .idle => "idle"
  | .contact => "awaiting-collision"
  | .beat => "awaiting-paint"

/-- The conductor between two events. -/
structure Conductor where
  phase : Phase
  /-- The time from beat to beat; without one nothing is ever drawn. -/
  interval : Option Millis
  /-- The time from the event that is waited for to the next beat, or to it if it is the beat. -/
  remaining : Millis
  /-- The contacts that have been dealt with at the instant `settledAt`. They are not forecast
  again until time moves on or one of their balls has a new velocity. -/
  settled : List Contact
  settledAt : Instant
  frames : Nat
  contacts : Nat
deriving DecidableEq, Repr

namespace Conductor

variable {K : Type} [Scalar K]

/-- A conductor that has not started. -/
def new (interval : Option Millis) : Conductor where
  phase := .idle
  interval := interval
  remaining := interval.getD 0
  settled := []
  settledAt := 0
  frames := 0
  contacts := 0

/-- The event to wait for when `next` is the next contact: after what delay it is due, what it
says, and the conductor that waits for it. Without contact and without beat there is none. -/
def followUp? (conductor : Conductor) (next : Option Forecast) :
    Option (Millis × Signal × Conductor) :=
  let forContact (forecast : Forecast) (remaining : Millis) :=
    (forecast.delay, Signal.ofContact forecast.contact forecast.delay,
      { conductor with phase := .contact, remaining := remaining })
  let forBeat :=
    (conductor.remaining, Signal.beat conductor.remaining, { conductor with phase := .beat })
  match next, conductor.interval with
  | some forecast, some _ =>
    if forecast.delay < conductor.remaining then
      some (forContact forecast (conductor.remaining - forecast.delay))
    else some forBeat
  | some forecast, none => some (forContact forecast conductor.remaining)
  | none, some _ => some forBeat
  | none, none => none

/-- Waits for the next event, or stalls. -/
def arm (visit : Visit) (conductor : Conductor) : Plan K (Outcome K Conductor) := do
  let next := (← Plan.table).nextContact? conductor.settled
  Plan.say (.foresaw visit.agent next)
  match conductor.followUp? next with
  | some (delay, signal, waiting) =>
    let _ ← Plan.awaitIn delay signal
    return (waiting, .ok ())
  | none =>
    return ({ conductor with phase := .idle }, .error (.fault (.stalled visit.agent visit.now)))

/-- The conductor with only the contacts of the present instant settled. -/
def atInstant (now : Instant) (conductor : Conductor) : Conductor :=
  if now = conductor.settledAt then conductor
  else { conductor with settled := [], settledAt := now }

/-- Whether a ball has another velocity on the second table than on the first. -/
def deflected (before after : Table K) (ball : BallId) : Bool :=
  after.velocity? ball != before.velocity? ball

/-- Settles a contact that has taken one table to the other. A ball with a new velocity has new
contacts ahead, so what it had settled before is open again. -/
def settle (before after : Table K) (contact : Contact) (conductor : Conductor) : Conductor :=
  let changed := contact.balls.filter (deflected before after)
  { conductor with
    settled := contact :: conductor.settled.filter fun other => !changed.any other.involves
    contacts := conductor.contacts + 1 }

/-- Reacts to a contact. -/
def collide (visit : Visit) (contact : Contact) (elapsed : Millis) (conductor : Conductor) :
    Plan K (Outcome K Conductor) := do
  let before := (← Plan.table).drift elapsed
  let met := contact.effect? before
  if met.isNone then Plan.say (.missed visit.agent contact)
  let after := met.getD before
  Plan.setTable after
  ((conductor.atInstant visit.now).settle before after contact).arm visit

/-- Reacts to a beat. -/
def paint (visit : Visit) (elapsed : Millis) (conductor : Conductor) :
    Plan K (Outcome K Conductor) := do
  let table := (← Plan.table).drift elapsed
  Plan.setTable table
  Plan.drawAll table.frame
  let painted :=
    { conductor with
      remaining := conductor.interval.getD conductor.remaining
      settled := []
      settledAt := visit.now
      frames := conductor.frames + 1 }
  painted.arm visit

/-- Reacts to a key. -/
def turn (way : Turn) (conductor : Conductor) : Plan K (Outcome K Conductor) := do
  let table := (← Plan.table).turn way
  Plan.setTable table
  Plan.say (.turned table.turret.angle)
  return (conductor, .ok ())

/-- Leaves an event alone that it is not waiting for. -/
def ignore (visit : Visit) (signal : Signal) (conductor : Conductor) :
    Plan K (Outcome K Conductor) := do
  Plan.say (.ignored visit.agent signal conductor.phase.label)
  return (conductor, .ok ())

/-- Starts, or starts again. -/
def start (visit : Visit) (conductor : Conductor) : Plan K (Outcome K Conductor) :=
  { conductor with
    remaining := conductor.interval.getD 0
    settled := []
    settledAt := visit.now }.arm visit

/-- Reacts to a signal. Keys are always welcome; any other event only if it is of the kind that is
waited for. -/
def handle (visit : Visit) (signal : Signal) (conductor : Conductor) :
    Plan K (Outcome K Conductor) :=
  match conductor.phase, signal with
  | _, .key way => conductor.turn way
  | .contact, .wall ball side elapsed => conductor.collide visit (.wall ball side) elapsed
  | .contact, .pair a b elapsed => conductor.collide visit (.between a b) elapsed
  | .beat, .beat elapsed => conductor.paint visit elapsed
  | _, _ => conductor.ignore visit signal

instance : Agent K Conductor where
  name _ := "painter"
  state conductor := conductor.phase.label
  start visit conductor := conductor.start visit
  handle visit event conductor := conductor.handle visit event.signal

end Conductor

end Billiard
