import Billiard.Agenda.Basic
import Billiard.Canvas
import Billiard.Prediction

/-!
Agents: what only changes when an event is delivered to it. What an agent does about an event is a
plan, and the steps of a plan are all that an agent can do: it reads and moves the table, draws,
remarks, and schedules events for itself. It sees the instant for which the event was scheduled and
never a clock, so being called late makes no difference to it.
-/

namespace Billiard

/-- Steps on the way to a result. -/
inductive Plan (K α : Type) where
  | done (result : α)
  /-- Look at the table. -/
  | look (next : Table K → Plan K α)
  /-- Put the table into a new position. -/
  | lay (table : Table K) (next : Plan K α)
  | draw (stroke : Stroke K) (next : Plan K α)
  | remark (remark : Remark K) (next : Plan K α)
  /-- Schedule one more event. -/
  | send (delay : Millis) (signal : Signal) (next : EventId → Plan K α)
  /-- Schedule the event to wait for, in place of what was waited for until now. -/
  | await (delay : Millis) (signal : Signal) (next : EventId → Plan K α)

namespace Plan

variable {K α β : Type}

/-- One plan after another. -/
def bind : Plan K α → (α → Plan K β) → Plan K β
  | .done result, rest => rest result
  | .look next, rest => .look fun table => (next table).bind rest
  | .lay table next, rest => .lay table (next.bind rest)
  | .draw stroke next, rest => .draw stroke (next.bind rest)
  | .remark words next, rest => .remark words (next.bind rest)
  | .send delay signal next, rest => .send delay signal fun id => (next id).bind rest
  | .await delay signal next, rest => .await delay signal fun id => (next id).bind rest

instance : Monad (Plan K) where
  pure := .done
  bind := bind

/-- The table as it is now. -/
def table : Plan K (Table K) := .look .done

/-- Replaces the table. -/
def setTable (table : Table K) : Plan K Unit := .lay table (.done ())

/-- Changes the table. -/
def modifyTable (change : Table K → Table K) : Plan K Unit :=
  .look fun table => .lay (change table) (.done ())

/-- Draws strokes one after another. -/
def drawAll : List (Stroke K) → Plan K Unit
  | [] => .done ()
  | stroke :: rest => .draw stroke (drawAll rest)

/-- Says something. -/
def say (words : Remark K) : Plan K Unit := .remark words (.done ())

/-- Schedules one more event. -/
def sendIn (delay : Millis) (signal : Signal) : Plan K EventId := .send delay signal .done

/-- Schedules the event to wait for. -/
def awaitIn (delay : Millis) (signal : Signal) : Plan K EventId := .await delay signal .done

end Plan

/-- For whom and for when a plan is carried out. -/
structure Visit where
  agent : AgentId
  now : Instant
deriving DecidableEq, Repr

/-- Everything that plans work on. -/
structure Stage (K C : Type) where
  table : Table K
  canvas : C
  agenda : Agenda
  journal : Journal K

namespace Stage

variable {K C : Type}

/-- The stage with one more note. -/
def note (stage : Stage K C) (entry : Note K) : Stage K C :=
  { stage with journal := stage.journal.push entry }

/-- Draws one stroke. -/
def draw [Canvas K C] (stage : Stage K C) (stroke : Stroke K) : Stage K C :=
  let (canvas, remarks) := Canvas.draw stage.canvas stroke
  { stage with canvas := canvas, journal := stage.journal ++ remarks.map Note.said }

/-- Schedules an event for the visited agent. -/
def send (visit : Visit) (delay : Millis) (signal : Signal) (stage : Stage K C) :
    EventId × Stage K C :=
  let (id, agenda) := stage.agenda.schedule visit.agent (visit.now.after delay) signal
  (id, { stage with agenda := agenda })

/-- Takes out what the visited agent is waiting for. It is noted if there was anything. -/
def withdraw (visit : Visit) (stage : Stage K C) : Stage K C :=
  let (events, agenda) := stage.agenda.withdraw visit.agent
  let stage := { stage with agenda := agenda }
  if events.isEmpty then stage else stage.note (.replaced visit.agent events)

end Stage

/-- Carries out a plan. -/
def Plan.run {K C α : Type} [Canvas K C] (visit : Visit) :
    Plan K α → Stage K C → α × Stage K C
  | .done result, stage => (result, stage)
  | .look next, stage => (next stage.table).run visit stage
  | .lay table next, stage => next.run visit { stage with table := table }
  | .draw stroke next, stage => next.run visit (stage.draw stroke)
  | .remark words next, stage => next.run visit (stage.note (.said words))
  | .send delay signal next, stage =>
    let (id, stage) := stage.send visit delay signal
    (next id).run visit stage
  | .await delay signal next, stage =>
    let (id, stage) := (stage.withdraw visit).send visit delay signal
    (next id).run visit stage

/-- Carrying out one plan after another is carrying out both. -/
theorem Plan.run_bind {K C α β : Type} [Canvas K C] (visit : Visit) (plan : Plan K α)
    (rest : α → Plan K β) (stage : Stage K C) :
    (plan >>= rest).run visit stage
      = (rest (plan.run visit stage).1).run visit (plan.run visit stage).2 := by
  show (plan.bind rest).run visit stage = _
  induction plan generalizing stage with
  | done result => rfl
  | look next ih => exact ih stage.table stage
  | lay table next ih => exact ih _
  | draw stroke next ih => exact ih _
  | remark words next ih => exact ih _
  | send delay signal next ih => exact ih _ _
  | await delay signal next ih => exact ih _ _

/-- Why a delivery does not come to its end. -/
inductive Break (K : Type) where
  | fault (fault : Fault K)
  /-- The agent itself broke down. -/
  | crash

/-- An agent after a visit, and whether the visit came to its end. -/
abbrev Outcome (K A : Type) := A × Except (Break K) Unit

/-- Something that reacts to events. -/
class Agent (K A : Type) where
  /-- What kind of agent it is. -/
  name : A → String
  /-- What it is doing, in a word. -/
  state : A → String
  /-- What it does when the simulation starts. -/
  start : Visit → A → Plan K (Outcome K A)
  /-- What it does about an event. -/
  handle : Visit → Event → A → Plan K (Outcome K A)

end Billiard
