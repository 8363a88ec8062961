import Billiard.Proofs.Beats
import Billiard.Proofs.Turret

/-!
What a delivery leaves alone. It answers what the conductor waits for, and keys (`Phase.answers`).
A contact or a beat moves all balls as far as they get, then a contact turns no balls but its own
(`Signal.exists_moved`), and what is scheduled in place of the old event is all that changes in the
agenda (`Arms.others`). All of it, for every delivery, is `handle_spares`.
-/

namespace Billiard

variable {K C : Type} [Scalar K] {table : Table K}

/-- The signals that are answered: keys, and of the others the kind that is waited for. -/
def Phase.answers : Phase → Signal → Bool
  | _, .key _ => true
  | .contact, .wall .. | .contact, .pair .. | .beat, .beat _ => true
  | .idle, _ | .contact, .beat _ | .beat, .wall .. | .beat, .pair .. => false

theorem Contact.turret_of_effect? {contact : Contact} {after : Table K}
    (effect : contact.effect? table = some after) : after.turret = table.turret := by
  cases contact with
  | wall hit side =>
    simp only [effect?, Table.bounce?] at effect
    split at effect <;> cases effect
    rfl
  | pair a b =>
    simp only [effect?, Table.meet?] at effect
    repeat' split at effect
    all_goals cases effect
    all_goals rfl

namespace Signal

theorem turret_play {signal : Signal} (recurs : signal.recurs) :
    (signal.play table).turret = table.turret := by
  have met (contact : Contact) (elapsed : Millis) :
      ((contact.effect? (table.drift elapsed)).getD (table.drift elapsed)).turret =
        table.turret := by
    cases effect : contact.effect? (table.drift elapsed) with
    | none => rfl
    | some after =>
      have kept : after.turret = (table.drift elapsed).turret := Contact.turret_of_effect? effect
      exact kept
  cases signal with
  | wall hit side elapsed => exact met _ _
  | pair a b elapsed => exact met _ _
  | beat elapsed => rfl
  | key way => cases recurs

end Signal

/-- The pending events that an agent does not wait for: keys, and all that is for others. -/
def Agenda.others (agenda : Agenda) (target : AgentId) : List Event :=
  agenda.toList.filter fun event => !event.recursFor target

namespace Conductor

variable {visit : Visit} {signal : Signal} {conductor ready : Conductor}

/-- Arming changes nothing in the agenda but what is waited for. -/
theorem Arms.others {agenda rearmed : Agenda} {outcome : Outcome K Conductor}
    (arms : Arms visit ready table agenda outcome rearmed) :
    rearmed.others visit.agent = agenda.others visit.agent := by
  cases arms with
  | stalls _ => rfl
  | waits follows =>
    unfold Agenda.others
    rw [Agenda.filter_toList_schedule (by simp [Event.recursFor, Agenda.fresh,
      recurs_of_follows follows]), Agenda.toList_withdraw, List.filter_filter]
    simp

theorem isSome_reaction? (now : Instant) (conductor : Conductor) (signal : Signal)
    (table : Table K) : (conductor.reaction? now signal table).isSome =
      (signal.recurs && conductor.phase.answers signal) := by
  unfold reaction?
  cases conductor.phase <;> cases signal <;> rfl

/-- What a conductor leaves alone when it is told something. -/
structure Spares (visit : Visit) (signal : Signal) (conductor : Conductor) (before : Stage K C)
    (outcome : Outcome K Conductor) (after : Stage K C) : Prop where
  /-- Walls and rules are the same, and so are the balls but for their places and velocities. -/
  rules : after.table.Resembles before.table
  /-- Nothing becomes of keys that are pending, and of what others wait for. -/
  others : after.agenda.others visit.agent = before.agenda.others visit.agent
  /-- A contact or a beat that is answered moves all balls. -/
  moves : signal.recurs → conductor.phase.answers signal → ∀ id ball,
    before.table.balls[id]? = some ball → ∃ moved, after.table.balls[id]? = some moved ∧
      moved.position =
        (ball.position + ball.velocity * (Scalar.ofMillis signal.elapsed / 1000.0 : K) : Vec K) ∧
      (id ∉ signal.balls → moved.velocity = ball.velocity)
  /-- No contact and no beat turns the turret. -/
  turret : signal.recurs → after.table.turret = before.table.turret
  /-- A contact draws nothing. -/
  canvas : signal.isContact → after.canvas = before.canvas
  /-- A key turns the turret, and that is all. -/
  key : ∀ way, signal = .key way → outcome = (conductor, .ok ()) ∧
    after.table = before.table.turnedTo after.table.turret.angle ∧
    after.agenda = before.agenda ∧ after.canvas = before.canvas
  /-- What is not answered changes nothing. -/
  ignored : conductor.phase.answers signal = false → outcome = (conductor, .ok ()) ∧
    after.table = before.table ∧ after.agenda = before.agenda ∧ after.canvas = before.canvas

theorem drawn_of_quiet [Canvas K C] (quiet : ¬(conductor.phase = .beat ∧ signal.isBeat))
    (table : Table K) (canvas : C) : conductor.drawn signal table canvas = canvas := by
  unfold drawn
  split
  · next phase => exact absurd ⟨phase, rfl⟩ quiet
  · rfl

/-- Whatever a delivery makes of the conductor, the table and the agenda, it leaves the rest alone
if it draws what it should. -/
theorem Handles.spares [Canvas K C] {before after : Stage K C} {outcome : Outcome K Conductor}
    (handles : Handles visit signal conductor before.table before.agenda outcome after.table
      after.agenda)
    (drawn : after.canvas = conductor.drawn signal before.table before.canvas) :
    Spares visit signal conductor before outcome after := by
  obtain ⟨table, canvas, agenda, journal⟩ := after
  change canvas = _ at drawn
  have answered := conductor.isSome_reaction? visit.now signal before.table
  have once {way : Turn} (key : signal = .key way) : ¬signal.recurs := by
    simp [key, Signal.recurs]
  have undrawn (isContact : signal.isContact) : canvas = before.canvas := by
    refine drawn.trans (drawn_of_quiet ?_ _ _)
    simp [Signal.isBeat_of_isContact isContact]
  cases handles with
  | @key way key =>
    have kept : (before.table.turn way).Resembles before.table := ⟨rfl, rfl, rfl, rfl⟩
    refine ⟨kept, rfl, fun recurs => absurd recurs (once key),
      fun recurs => absurd recurs (once key), undrawn, fun _ _ => ?_, by simp [key, Phase.answers]⟩
    refine ⟨rfl, ?_, rfl, drawn.trans (drawn_of_key key _ _ _)⟩
    cases way <;> rfl
  | reacts reacts arms =>
    rw [reacts] at answered
    obtain ⟨recurs, welcome⟩ := Bool.and_eq_true_iff.1 answered.symm
    have played : table = signal.play before.table := Signal.play_of_reaction? reacts
    refine ⟨resembles_of_reaction? reacts, arms.others, fun _ _ id ball there => ?_, fun _ => ?_,
      undrawn, fun way key => absurd recurs (once key), by simp [welcome]⟩
    · rw [played]
      exact Signal.exists_moved recurs there
    · exact (congrArg (·.turret) played).trans (Signal.turret_play recurs)
  | ignores recurs unwelcome =>
    rw [unwelcome, recurs] at answered
    have ignored : conductor.phase.answers signal = false := by simpa using answered.symm
    have same : canvas = before.canvas := by
      refine drawn.trans (drawn_of_quiet ?_ _ _)
      rintro ⟨phase, isBeat⟩
      obtain ⟨elapsed, tells⟩ := Signal.exists_beat isBeat
      simp [phase, tells, Phase.answers] at ignored
    exact ⟨.refl _, rfl, by simp [ignored], fun _ => rfl, undrawn,
      fun way key => absurd recurs (once key), fun _ => ⟨rfl, rfl, rfl, same⟩⟩

/-- A delivery changes only what it should, whatever the conductor is in the middle of, whatever the
table, the agenda and the canvas are like, and whether it ends well or not. -/
theorem handle_spares [Canvas K C] (visit : Visit) (event : Event) (conductor : Conductor)
    (before : Stage K C) :
    let ran := (Agent.handle visit event conductor).run visit before
    Spares visit event.signal conductor before ran.1 ran.2 :=
  (handles_run_handle visit event.signal conductor before).1.spares
    (canvas_run_handle visit event.signal conductor before)

end Conductor

end Billiard
