import Billiard.Conductor

/-!
What a visit makes of a conductor. A start and every welcome event end in an arming: the table and
the conductor are first made ready (`reaction?`), and the follow-up event then takes the place of
what was waited for (`Arms`). Drawing and remarks leave table and agenda alone.
-/

namespace Billiard

variable {K : Type} [Scalar K] {table : Table K} {delay : Millis}

namespace Table

/-- A wall contact is forecast for a ball and a wall of the table, and for when the ball gets
there. -/
theorem wall_mem_forecasts {ball : BallId} {side : WallId} :
    ⟨delay, .wall ball side⟩ ∈ table.forecasts ↔
      ∃ hit line, table.balls[ball]? = some hit ∧ table.walls[side]? = some line ∧
        hit.untilWall? table.reach line = some delay := by
  have never (other : BallId) (hit : Ball K) :
      ⟨delay, .wall ball side⟩ ∉ table.pairForecasts other hit := by
    simp only [pairForecasts, List.mem_filterMap, not_exists, not_and]
    rintro ⟨partner, place⟩ _ forecast
    simp only [Contact.between] at forecast
    split at forecast
    · cases forecast
    · split at forecast <;> simp at forecast
  simp only [forecasts, List.mem_flatMap, List.mem_range, List.mem_filter, countsFor, and_true]
  constructor
  · rintro ⟨id, _, member⟩
    unfold forecastsOf at member
    split at member
    · cases member
    · next hit found =>
      rcases List.mem_append.1 member with member | member
      · simp only [wallForecasts, List.mem_filterMap, Option.map_eq_some_iff] at member
        obtain ⟨⟨line, place⟩, there, _, soon, same⟩ := member
        cases same
        exact ⟨hit, line, found, List.mem_zipIdx_iff_getElem?.1 there, soon⟩
      · exact absurd member (never id hit)
  · rintro ⟨hit, line, found, there, soon⟩
    refine ⟨ball, (List.getElem?_eq_some_iff.1 found).1, ?_⟩
    simp only [forecastsOf, found]
    refine List.mem_append_left _ (List.mem_filterMap.2 ⟨(line, side), ?_, by simp [soon]⟩)
    exact List.mem_zipIdx_iff_getElem?.2 there

/-- A contact of two balls is forecast once, for the one of smaller number. -/
theorem pair_mem_forecasts {a b : BallId} :
    ⟨delay, .pair a b⟩ ∈ table.forecasts ↔
      a < b ∧ ∃ first second, table.balls[a]? = some first ∧ table.balls[b]? = some second ∧
        first.untilBall? second = some delay := by
  simp only [forecasts, List.mem_flatMap, List.mem_range, List.mem_filter, countsFor, beq_iff_eq]
  constructor
  · rintro ⟨id, _, member, rfl⟩
    unfold forecastsOf at member
    split at member
    · cases member
    · next first found =>
      rcases List.mem_append.1 member with member | member
      · simp [wallForecasts] at member
      · simp only [pairForecasts, List.mem_filterMap] at member
        obtain ⟨⟨second, place⟩, there, forecast⟩ := member
        split at forecast
        · cases forecast
        · next other =>
          obtain ⟨_, soon, same⟩ := Option.map_eq_some_iff.1 forecast
          simp only [Contact.between, Forecast.mk.injEq] at same
          obtain ⟨rfl, same⟩ := same
          split at same <;> cases same
          · next le =>
            exact ⟨Nat.lt_of_le_of_ne le (Ne.symm other), first, second, found,
              List.mem_zipIdx_iff_getElem?.1 there, soon⟩
          · exact absurd rfl other
  · rintro ⟨less, first, second, found, there, soon⟩
    refine ⟨a, (List.getElem?_eq_some_iff.1 found).1, ?_, rfl⟩
    simp only [forecastsOf, found]
    refine List.mem_append_right _ (List.mem_filterMap.2 ⟨(second, b), ?_, ?_⟩)
    · exact List.mem_zipIdx_iff_getElem?.2 there
    · simp [soon, Nat.ne_of_gt less, Contact.between, Nat.le_of_lt less]

/-- The next contact is forecast and open, and none that is open comes before it. -/
theorem nextContact?_mem {settled : List Contact} {forecast : Forecast}
    (next : table.nextContact? settled = some forecast) :
    forecast ∈ table.forecasts ∧ forecast.contact ∉ settled := by
  have member := List.mem_filter.1 (Forecast.soonest?_mem next)
  exact ⟨member.1, by simpa using member.2⟩

theorem nextContact?_le {settled : List Contact} {forecast other : Forecast}
    (next : table.nextContact? settled = some forecast) (member : other ∈ table.forecasts)
    (isOpen : other.contact ∉ settled) : forecast.delay ≤ other.delay :=
  Forecast.soonest?_le next (List.mem_filter.2 ⟨member, by simpa using isOpen⟩)

theorem nextContact?_eq_none {settled : List Contact} :
    table.nextContact? settled = none ↔
      ∀ forecast ∈ table.forecasts, forecast.contact ∈ settled := by
  simp [nextContact?, Forecast.soonest?_eq_none_iff, List.filter_eq_nil_iff]

/-- Settled contacts that are not forecast make no difference. -/
theorem nextContact?_of_open {settled : List Contact}
    (isOpen : ∀ forecast ∈ table.forecasts, forecast.contact ∉ settled) :
    table.nextContact? settled = table.nextContact? [] := by
  rw [nextContact?, nextContact?, List.filter_eq_self.2 (by simpa using isOpen),
    List.filter_eq_self.2 (by simp)]

/-- Without settled contacts there is a next one whenever there is one with some settled. -/
theorem nextContact?_nil_ne_none {settled : List Contact} {forecast : Forecast}
    (next : table.nextContact? settled = some forecast) : table.nextContact? [] ≠ none := by
  intro nothing
  exact absurd (nextContact?_eq_none.1 nothing _ (nextContact?_mem next).1) List.not_mem_nil

end Table

/-- The contact is of a ball and a wall of the table, or of two of its balls in order. -/
def Contact.At (table : Table K) : Contact → Prop
  | .wall ball side => ball < table.balls.length ∧ side < table.walls.length
  | .pair a b => a < b ∧ b < table.balls.length

/-- Forecasts are about what is there. -/
theorem Table.at_of_mem_forecasts {forecast : Forecast} (member : forecast ∈ table.forecasts) :
    forecast.contact.At table := by
  obtain ⟨delay, contact⟩ := forecast
  cases contact with
  | wall ball side =>
    obtain ⟨_, _, found, there, _⟩ := wall_mem_forecasts.1 member
    exact ⟨(List.getElem?_eq_some_iff.1 found).1, (List.getElem?_eq_some_iff.1 there).1⟩
  | pair a b =>
    obtain ⟨less, _, _, _, there, _⟩ := pair_mem_forecasts.1 member
    exact ⟨less, (List.getElem?_eq_some_iff.1 there).1⟩

/-- Contacts of what is there have their effect. -/
theorem Contact.effect?_isSome {contact : Contact} (there : contact.At table) :
    (contact.effect? table).isSome := by
  cases contact with
  | wall ball side =>
    simp [Contact.effect?, Table.bounce?, there.1, there.2]
  | pair a b =>
    have first : a < table.balls.length := Nat.lt_trans there.1 there.2
    simp only [Contact.effect?, Table.meet?, there.1, ↓reduceIte, Nat.ne_of_lt there.1,
      List.getElem?_eq_getElem first, List.getElem?_eq_getElem there.2]
    cases table.response <;> rfl

/-- A ball bounces off a wall if both are there. -/
theorem Table.exists_bounce? {hit : BallId} {place : WallId} {ball : Ball K} {wall : Segment K}
    (here : table.balls[hit]? = some ball) (there : table.walls[place]? = some wall) :
    ∃ after, table.bounce? hit place = some after ∧
      after.balls[hit]? = some (ball.bounce wall) := by
  refine ⟨{ table with balls := table.balls.set hit (ball.bounce wall) }, ?_, ?_⟩
  · simp only [bounce?, there, here]
  · exact List.getElem?_set_self (List.getElem?_eq_some_iff.1 here).1

namespace Ball

theorem position_bounce (wall : Segment K) (ball : Ball K) :
    (ball.bounce wall).position = ball.position := by
  unfold bounce
  split <;> rfl

theorem radius_bounce (wall : Segment K) (ball : Ball K) :
    (ball.bounce wall).radius = ball.radius := by
  unfold bounce
  split <;> rfl

/-- An exchange changes velocities only. -/
theorem exchange_kept (first second : Ball K) :
    (first.exchange second).1.position = first.position ∧
      (first.exchange second).1.radius = first.radius ∧
      (first.exchange second).2.position = second.position ∧
      (first.exchange second).2.radius = second.radius := by
  unfold exchange
  split
  · simp
  · simp only
    split
    · simp
    · split <;> simp

end Ball

namespace Table

/-- The same walls and rules, and balls of the same sizes. -/
structure Resembles (table origin : Table K) : Prop where
  walls : table.walls = origin.walls
  reach : table.reach = origin.reach
  response : table.response = origin.response
  radii : table.balls.map (·.radius) = origin.balls.map (·.radius)

namespace Resembles

variable {origin other : Table K}

omit [Scalar K] in
theorem refl (table : Table K) : table.Resembles table := ⟨rfl, rfl, rfl, rfl⟩

omit [Scalar K] in
theorem trans (first : table.Resembles other) (second : other.Resembles origin) :
    table.Resembles origin :=
  ⟨first.walls.trans second.walls, first.reach.trans second.reach,
    first.response.trans second.response, first.radii.trans second.radii⟩

omit [Scalar K] in
theorem symm (alike : table.Resembles origin) : origin.Resembles table :=
  ⟨alike.walls.symm, alike.reach.symm, alike.response.symm, alike.radii.symm⟩

omit [Scalar K] in
theorem length (alike : table.Resembles origin) : table.balls.length = origin.balls.length := by
  simpa using congrArg List.length alike.radii

theorem drift (elapsed : Millis) (table : Table K) : (table.drift elapsed).Resembles table :=
  ⟨rfl, rfl, rfl, by simp [Table.drift, Ball.drift]⟩

omit [Scalar K] in
theorem radius_mem (alike : table.Resembles origin) {ball : Ball K} (member : ball ∈ table.balls) :
    ∃ other ∈ origin.balls, other.radius = ball.radius := by
  have sized : ball.radius ∈ origin.balls.map (·.radius) :=
    alike.radii ▸ List.mem_map_of_mem member
  exact List.mem_map.1 sized

end Resembles

end Table

omit [Scalar K] in
/-- What is at a table is at every other that resembles it. -/
theorem Contact.At.of_resembles {contact : Contact} {origin : Table K} (there : contact.At table)
    (alike : table.Resembles origin) : contact.At origin := by
  cases contact with
  | wall ball side => exact ⟨alike.length ▸ there.1, alike.walls ▸ there.2⟩
  | pair a b => exact ⟨there.1, alike.length ▸ there.2⟩

omit [Scalar K] in
private theorem getElem?_set_cases {balls : List (Ball K)} {place id : BallId}
    {new ball : Ball K} (found : (balls.set place new)[id]? = some ball) :
    place = id ∧ ball = new ∨ place ≠ id ∧ balls[id]? = some ball := by
  rw [List.getElem?_set] at found
  split at found
  · next same =>
    split at found <;> cases found
    exact .inl ⟨same, rfl⟩
  · next other => exact .inr ⟨other, found⟩

/-- A contact leaves every ball where it is, and leaves those alone that take no part. -/
theorem Contact.balls_of_effect? {contact : Contact} {before after : Table K} {id : BallId}
    {ball : Ball K} (effect : contact.effect? before = some after)
    (found : after.balls[id]? = some ball) :
    ∃ old, before.balls[id]? = some old ∧ ball.position = old.position ∧
      ball.radius = old.radius ∧ (id ∉ contact.balls → ball = old) := by
  cases contact with
  | wall hit side =>
    simp only [Contact.effect?, Table.bounce?] at effect
    split at effect
    · next line moving _ there =>
      cases effect
      rcases getElem?_set_cases found with ⟨rfl, rfl⟩ | ⟨_, same⟩
      · exact ⟨moving, there, Ball.position_bounce line moving, Ball.radius_bounce line moving,
          fun apart => absurd (List.mem_singleton_self _) apart⟩
      · exact ⟨ball, same, rfl, rfl, fun _ => rfl⟩
    · cases effect
  | pair a b =>
    have lower : (if a < b then a else b) ∈ (Contact.pair a b).balls := by
      split <;> simp [Contact.balls]
    have upper : (if a < b then b else a) ∈ (Contact.pair a b).balls := by
      split <;> simp [Contact.balls]
    simp only [Contact.effect?, Table.meet?] at effect
    generalize (if a < b then a else b) = low at effect lower
    generalize (if a < b then b else a) = high at effect upper
    split at effect
    · cases effect
    · split at effect
      · next first second foundFirst foundSecond =>
        split at effect
        · cases effect
          exact ⟨ball, found, rfl, rfl, fun _ => rfl⟩
        · cases effect
          obtain ⟨place, size, place', size'⟩ := Ball.exchange_kept first second
          rcases getElem?_set_cases found with ⟨rfl, rfl⟩ | ⟨_, found⟩
          · exact ⟨second, foundSecond, place', size', fun apart => absurd upper apart⟩
          · rcases getElem?_set_cases found with ⟨rfl, rfl⟩ | ⟨_, same⟩
            · exact ⟨first, foundFirst, place, size, fun apart => absurd lower apart⟩
            · exact ⟨ball, same, rfl, rfl, fun _ => rfl⟩
      · cases effect

/-- A contact changes velocities only. -/
theorem Contact.resembles_of_effect? {contact : Contact} {before after : Table K}
    (effect : contact.effect? before = some after) : after.Resembles before := by
  obtain ⟨walls, reach, response, length⟩ : after.walls = before.walls ∧
      after.reach = before.reach ∧ after.response = before.response ∧
      after.balls.length = before.balls.length := by
    cases contact with
    | wall hit side =>
      simp only [Contact.effect?, Table.bounce?] at effect
      split at effect <;> cases effect
      simp
    | pair a b =>
      simp only [Contact.effect?, Table.meet?] at effect
      repeat' split at effect
      all_goals cases effect
      all_goals simp
  refine ⟨walls, reach, response, ?_⟩
  apply List.ext_getElem
  · simp [length]
  intro id here _
  rw [List.length_map] at here
  obtain ⟨old, found, _, size, _⟩ :=
    balls_of_effect? effect (List.getElem?_eq_getElem here)
  obtain ⟨_, same⟩ := List.getElem?_eq_some_iff.1 found
  simp [size, same]

namespace Conductor

variable {C : Type} [Canvas K C] {visit : Visit} {signal : Signal}
  {conductor ready waiting : Conductor}

/-- The event that follows for a conductor that is ready at a table. -/
def follows (ready : Conductor) (table : Table K) : Option (Millis × Signal × Conductor) :=
  ready.followUp? (table.nextContact? ready.settled)

/-- What there is to wait for: the next contact, if it comes strictly before the next beat, or
the beat, if no contact does. -/
theorem follows_cases (follows : ready.follows table = some (delay, signal, waiting)) :
    (∃ forecast, table.nextContact? ready.settled = some forecast ∧ forecast.delay = delay ∧
      signal = .ofContact forecast.contact delay ∧
      (ready.interval = none ∧ waiting = { ready with phase := .contact } ∨
        ready.interval ≠ none ∧ delay < ready.remaining ∧
          waiting = { ready with phase := .contact, remaining := ready.remaining - delay })) ∨
    ready.interval ≠ none ∧ delay = ready.remaining ∧ signal = .beat delay ∧
      waiting = { ready with phase := .beat } ∧
      ∀ forecast, table.nextContact? ready.settled = some forecast → delay ≤ forecast.delay := by
  unfold Conductor.follows followUp? at follows
  split at follows
  · next forecast interval next paced =>
    split at follows
    · next early =>
      cases follows
      exact .inl ⟨forecast, next, rfl, rfl, .inr ⟨by simp [paced], early, rfl⟩⟩
    · next late =>
      cases follows
      refine .inr ⟨by simp [paced], rfl, rfl, rfl, ?_⟩
      intro other same
      rw [next, Option.some.injEq] at same
      exact same ▸ UInt64.not_lt.1 late
  · next forecast next silent =>
    cases follows
    exact .inl ⟨forecast, next, rfl, rfl, .inl ⟨silent, rfl⟩⟩
  · next interval next paced =>
    cases follows
    exact .inr ⟨by simp [paced], rfl, rfl, rfl, fun other same => by simp [next] at same⟩
  · cases follows

/-- Nothing follows only where no beat ever comes and every forecast contact is settled. -/
theorem follows_eq_none :
    ready.follows table = none ↔
      ready.interval = none ∧ table.nextContact? ready.settled = none := by
  unfold Conductor.follows followUp?
  split
  · next forecast interval next paced =>
    split <;> simp [next]
  · simp_all
  · simp_all
  · simp_all

/-- Where beats come, something always follows. -/
theorem follows_ne_none {beat : Millis} (beats : ready.interval = some beat) :
    ready.follows table ≠ none := by
  intro nothing
  rw [(follows_eq_none.1 nothing).1] at beats
  cases beats

/-- A contact that comes before the next beat is waited for. -/
theorem follows_contact {beat : Millis} {contact : Contact} (beats : ready.interval = some beat)
    (next : table.nextContact? ready.settled = some ⟨delay, contact⟩)
    (early : delay < ready.remaining) :
    ready.follows table = some (delay, .ofContact contact delay,
      { ready with phase := .contact, remaining := ready.remaining - delay }) := by
  simp only [follows, followUp?, next, beats, if_pos early]

/-- If no contact comes, the next beat is waited for. -/
theorem follows_beat {beat : Millis} (beats : ready.interval = some beat)
    (nothing : table.nextContact? ready.settled = none) :
    ready.follows table = some (ready.remaining, .beat ready.remaining,
      { ready with phase := .beat }) := by
  simp only [follows, followUp?, nothing, beats]

/-- Waiting changes nothing that was settled, nor the instant of it, nor the time between
beats. -/
theorem follows_kept (follows : ready.follows table = some (delay, signal, waiting)) :
    waiting.settled = ready.settled ∧ waiting.settledAt = ready.settledAt ∧
      waiting.interval = ready.interval := by
  rcases follows_cases follows with ⟨_, _, _, _, ⟨_, rfl⟩ | ⟨_, _, rfl⟩⟩ | ⟨_, _, _, rfl, _⟩ <;>
    exact ⟨rfl, rfl, rfl⟩

/-- What arming makes of a conductor that is ready, and of the agenda. -/
inductive Arms (visit : Visit) (ready : Conductor) (table : Table K) (agenda : Agenda) :
    Outcome K Conductor → Agenda → Prop where
  | waits {delay : Millis} {signal : Signal} {waiting : Conductor}
      (follows : ready.follows table = some (delay, signal, waiting)) :
      Arms visit ready table agenda (waiting, .ok ())
        ((agenda.withdraw visit.agent).2.schedule visit.agent (visit.now.after delay) signal).2
  | stalls (nothing : ready.follows table = none) :
      Arms visit ready table agenda
        ({ ready with phase := .idle }, .error (.fault (.stalled visit.agent visit.now))) agenda

/-- Armed or stalled, a conductor has settled what it had settled, and keeps its beats. -/
theorem Arms.kept {agenda rearmed : Agenda} {outcome : Outcome K Conductor}
    (arms : Arms visit ready table agenda outcome rearmed) :
    outcome.1.settled = ready.settled ∧ outcome.1.settledAt = ready.settledAt ∧
      outcome.1.interval = ready.interval := by
  cases arms with
  | waits follows => exact follows_kept follows
  | stalls _ => exact ⟨rfl, rfl, rfl⟩

/-- The table, and the conductor ready to wait again, after a contact that came about `elapsed`
milliseconds after the last event. -/
def collided (now : Instant) (contact : Contact) (elapsed : Millis) (conductor : Conductor)
    (table : Table K) : Table K × Conductor :=
  let before := table.drift elapsed
  let after := (contact.effect? before).getD before
  (after, (conductor.atInstant now).settle before after contact)

/-- The table, and the conductor ready to wait again, after a beat. -/
def painted (now : Instant) (elapsed : Millis) (conductor : Conductor) (table : Table K) :
    Table K × Conductor :=
  (table.drift elapsed,
   { conductor with
     remaining := conductor.interval.getD conductor.remaining
     settled := []
     settledAt := now
     frames := conductor.frames + 1 })

/-- The conductor ready to wait at a start. -/
def restarted (now : Instant) (conductor : Conductor) : Conductor :=
  { conductor with remaining := conductor.interval.getD 0, settled := [], settledAt := now }

/-- What a signal leads to, if it is of the kind that is waited for. -/
def reaction? (now : Instant) (signal : Signal) (conductor : Conductor) (table : Table K) :
    Option (Table K × Conductor) :=
  match conductor.phase, signal with
  | .contact, .wall ball side elapsed =>
    some (conductor.collided now (.wall ball side) elapsed table)
  | .contact, .pair a b elapsed => some (conductor.collided now (.between a b) elapsed table)
  | .beat, .beat elapsed => some (conductor.painted now elapsed table)
  | _, _ => none

/-- A contact of two balls takes place after the drift up to it. If it is the first of its instant,
it is the only one that is settled then. -/
theorem reaction?_pair {a b : BallId} {now : Instant} {after : Table K}
    (waits : conductor.phase = .contact) (later : now ≠ conductor.settledAt)
    (effect : (Contact.between a b).effect? (table.drift delay) = some after) :
    conductor.reaction? now (.pair a b delay) table =
      some (after, { conductor with
        settled := [.between a b], settledAt := now, contacts := conductor.contacts + 1 }) := by
  simp [reaction?, waits, collided, effect, settle, atInstant, later]

/-- A reaction moves balls and turns them, and no more. -/
theorem resembles_of_reaction? {now : Instant} {after : Table K}
    (reacts : conductor.reaction? now signal table = some (after, ready)) :
    after.Resembles table := by
  have collided (contact : Contact) (elapsed : Millis) :
      (conductor.collided now contact elapsed table).1.Resembles table := by
    cases effect : contact.effect? (table.drift elapsed) with
    | none => simpa [Conductor.collided, effect] using Table.Resembles.drift elapsed table
    | some met =>
      simpa [Conductor.collided, effect] using
        (Contact.resembles_of_effect? effect).trans (Table.Resembles.drift elapsed table)
  unfold reaction? at reacts
  split at reacts <;> simp only [Option.some.injEq, Prod.ext_iff, reduceCtorEq] at reacts
  · exact reacts.1 ▸ collided _ _
  · exact reacts.1 ▸ collided _ _
  · exact reacts.1 ▸ Table.Resembles.drift _ table

/-- What a follow-up event leads to: the next contact, or a beat, after the delay. -/
theorem reaction_of_follows {now : Instant} {after : Table K} {next : Conductor}
    (follows : ready.follows table = some (delay, signal, waiting))
    (reacts : waiting.reaction? now signal table = some (after, next)) :
    (∃ contact, table.nextContact? waiting.settled = some ⟨delay, contact⟩ ∧
      signal = .ofContact contact delay ∧
      waiting.collided now contact delay table = (after, next)) ∨
    signal = .beat delay ∧ delay = waiting.remaining ∧ waiting.interval ≠ none ∧
      waiting.painted now delay table = (after, next) := by
  rcases follows_cases follows with ⟨⟨_, contact⟩, found, rfl, rfl, waits⟩ |
    ⟨paced, rfl, rfl, rfl, _⟩
  · left
    have phase : waiting.phase = .contact := by
      rcases waits with ⟨_, rfl⟩ | ⟨_, _, rfl⟩ <;> rfl
    refine ⟨contact, (follows_kept follows).1 ▸ found, rfl, ?_⟩
    cases contact with
    | wall ball side => simpa [reaction?, phase, Signal.ofContact] using reacts
    | pair a b =>
      have less := (Table.at_of_mem_forecasts (Table.nextContact?_mem found).1).1
      simpa [reaction?, phase, Signal.ofContact, Contact.between, Nat.le_of_lt less] using reacts
  · right
    exact ⟨rfl, rfl, paced, by simpa [reaction?] using reacts⟩

/-- The event to wait for comes no later than any open contact. -/
theorem delay_le_of_follows (follows : ready.follows table = some (delay, signal, waiting))
    {forecast : Forecast} (member : forecast ∈ table.forecasts)
    (isOpen : forecast.contact ∉ ready.settled) : delay ≤ forecast.delay := by
  rcases follows_cases follows with ⟨soonest, found, rfl, _⟩ | ⟨_, _, _, _, early⟩
  · exact Table.nextContact?_le found member isOpen
  · cases found : table.nextContact? ready.settled with
    | none => exact absurd (Table.nextContact?_eq_none.1 found forecast member) isOpen
    | some soonest =>
      exact UInt64.le_trans (early soonest found) (Table.nextContact?_le found member isOpen)

/-- No contact that a conductor leaves open while it waits comes sooner than what it waits for. -/
theorem no_sooner_of_follows (follows : ready.follows table = some (delay, signal, waiting)) :
    ∀ forecast ∈ table.forecasts, forecast.contact ∉ waiting.settled → delay ≤ forecast.delay :=
  fun _ member isOpen => delay_le_of_follows follows member ((follows_kept follows).1 ▸ isOpen)

/-- What is settled after a contact: the contact itself, and what was settled before, but for the
balls that it has deflected. -/
theorem mem_settle {before after : Table K} {contact other : Contact} :
    other ∈ (conductor.settle before after contact).settled ↔
      other = contact ∨ other ∈ conductor.settled ∧
        ∀ ball ∈ contact.balls, deflected before after ball → other.involves ball = false := by
  simp only [settle, List.mem_cons, List.mem_filter, Bool.not_eq_true', List.any_eq_false,
    Bool.not_eq_true, and_imp]

theorem mem_atInstant {now : Instant} {contact : Contact}
    (member : contact ∈ (conductor.atInstant now).settled) : contact ∈ conductor.settled := by
  unfold atInstant at member
  split at member
  · exact member
  · cases member

/-- The contact of a signal, if it has one, is about balls and walls that are there. -/
def Targets (signal : Signal) (table : Table K) : Prop :=
  ∀ contact, signal.contact? = some contact → contact.At table

end Conductor

/-- Something was not as an agent expected it: an event came at the wrong time, or a ball or a
wall was not there. -/
def Remark.isComplaint : Remark K → Bool
  | .ignored .. | .missed .. => true
  | .foresaw .. | .turned _ | .frame .. => false

/-- Whatever complaint is in the journal is a caption that the canvas made up. -/
def Stage.Calm {C : Type} [Canvas K C] (stage : Stage K C) : Prop :=
  ∀ remark, .said remark ∈ stage.journal → remark.isComplaint →
    ∃ (canvas : C) (stroke : Stroke K), remark ∈ (Canvas.draw canvas stroke).2

namespace Stage

variable {C : Type} [Canvas K C] {stage : Stage K C} {visit : Visit} {signal : Signal}

omit [Scalar K] in
theorem calm_note {entry : Note K} (calm : stage.Calm)
    (fine : ∀ remark, entry = .said remark → remark.isComplaint = false) :
    (stage.note entry).Calm := by
  intro remark member complaint
  rcases Array.mem_push.1 member with member | same
  · exact calm remark member complaint
  · simp [fine remark same.symm] at complaint

omit [Scalar K] in
theorem calm_draw (calm : stage.Calm) (stroke : Stroke K) : (stage.draw stroke).Calm := by
  intro remark member complaint
  let remarks := (Canvas.draw stage.canvas stroke).2
  have member : Note.said remark ∈ (stage.journal ++ remarks.map Note.said).toList :=
    Array.mem_def.1 member
  rw [Array.toList_appendList, List.mem_append] at member
  rcases member with member | member
  · exact calm remark (Array.mem_def.2 member) complaint
  · obtain ⟨_, drawn, same⟩ := List.mem_map.1 member
    cases same
    exact ⟨stage.canvas, stroke, drawn⟩

omit [Scalar K] in
theorem calm_withdraw (calm : stage.Calm) : (stage.withdraw visit).Calm := by
  unfold withdraw
  split
  next events agenda _ =>
    simp only
    split
    · exact calm
    · have withdrawn : ({ stage with agenda := agenda } : Stage K C).Calm := calm
      exact calm_note withdrawn (by simp)

omit [Scalar K] [Canvas K C] in
theorem table_withdraw : (stage.withdraw visit).table = stage.table := by
  unfold withdraw
  simp only
  split <;> rfl

omit [Scalar K] [Canvas K C] in
theorem agenda_withdraw :
    (stage.withdraw visit).agenda = (stage.agenda.withdraw visit.agent).2 := by
  unfold withdraw
  simp only
  split <;> rfl

omit [Scalar K] in
/-- Drawing leaves table and agenda alone. -/
theorem run_drawAll (visit : Visit) (strokes : List (Stroke K)) (stage : Stage K C) :
    ∃ canvas journal, ((Plan.drawAll strokes).run visit stage).2 =
        { stage with canvas := canvas, journal := journal } ∧
      (stage.Calm → ((Plan.drawAll strokes).run visit stage).2.Calm) := by
  induction strokes generalizing stage with
  | nil => exact ⟨stage.canvas, stage.journal, rfl, id⟩
  | cons stroke rest ih =>
    obtain ⟨canvas, journal, same, calm⟩ := ih (stage.draw stroke)
    exact ⟨canvas, journal, same, fun before => calm (calm_draw before stroke)⟩

end Stage

namespace Conductor

variable {C : Type} [Canvas K C] {visit : Visit} {signal : Signal} {conductor ready : Conductor}
  {stage : Stage K C}

/-- To arm is to wait for what follows. -/
theorem arms_run_arm (visit : Visit) (ready : Conductor) (stage : Stage K C) :
    Arms visit ready stage.table stage.agenda ((ready.arm visit).run visit stage).1
        ((ready.arm visit).run visit stage).2.agenda ∧
      ((ready.arm visit).run visit stage).2.table = stage.table ∧
      (stage.Calm → ((ready.arm visit).run visit stage).2.Calm) := by
  let told := stage.note (.said (.foresaw visit.agent (stage.table.nextContact? ready.settled)))
  have calm (before : stage.Calm) : told.Calm :=
    Stage.calm_note before (by rintro _ same; cases same; rfl)
  cases next : ready.follows stage.table with
  | none =>
    have ran : (ready.arm visit).run visit stage =
        (({ ready with phase := .idle }, .error (.fault (.stalled visit.agent visit.now))),
          told) := by
      rw [Conductor.follows] at next
      simp only [arm, Plan.run_bind, Plan.table, Plan.say, Plan.run]
      rw [next]
      rfl
    rw [ran]
    exact ⟨.stalls next, rfl, calm⟩
  | some armed =>
    obtain ⟨delay, signal, waiting⟩ := armed
    have ran : (ready.arm visit).run visit stage =
        ((waiting, .ok ()), ((told.withdraw visit).send visit delay signal).2) := by
      rw [Conductor.follows] at next
      simp only [arm, Plan.run_bind, Plan.table, Plan.say, Plan.run]
      rw [next]
      rfl
    rw [ran]
    refine ⟨?_, Stage.table_withdraw, fun before => Stage.calm_withdraw (calm before)⟩
    have sent : ((told.withdraw visit).send visit delay signal).2.agenda =
        ((stage.agenda.withdraw visit.agent).2.schedule visit.agent (visit.now.after delay)
          signal).2 := by
      simp only [Stage.send, Stage.agenda_withdraw]
      rfl
    rw [sent]
    exact .waits next

theorem arms_run_start (visit : Visit) (conductor : Conductor) (stage : Stage K C) :
    Arms visit (conductor.restarted visit.now) stage.table stage.agenda
        ((conductor.start visit).run visit stage).1
        ((conductor.start visit).run visit stage).2.agenda ∧
      ((conductor.start visit).run visit stage).2.table = stage.table ∧
      (stage.Calm → ((conductor.start visit).run visit stage).2.Calm) :=
  arms_run_arm visit (conductor.restarted visit.now) stage

/-- What a delivery makes of a conductor, the table and the agenda. -/
inductive Handles (visit : Visit) (signal : Signal) (conductor : Conductor) (table : Table K)
    (agenda : Agenda) : Outcome K Conductor → Table K → Agenda → Prop where
  | key {way : Turn} (key : signal = .key way) :
      Handles visit signal conductor table agenda (conductor, .ok ()) (table.turn way) agenda
  | reacts {ready : Conductor} {after : Table K} {outcome : Outcome K Conductor}
      {rearmed : Agenda}
      (reacts : conductor.reaction? visit.now signal table = some (after, ready))
      (arms : Arms visit ready after agenda outcome rearmed) :
      Handles visit signal conductor table agenda outcome after rearmed
  | ignores (recurs : signal.recurs)
      (unwelcome : conductor.reaction? visit.now signal table = none) :
      Handles visit signal conductor table agenda (conductor, .ok ()) table agenda

private theorem handles_collide (visit : Visit) (conductor : Conductor) (stage : Stage K C)
    (elapsed : Millis) {contact : Contact} {signal : Signal}
    (announces : signal.contact? = some contact)
    (welcome : conductor.reaction? visit.now signal stage.table =
      some (conductor.collided visit.now contact elapsed stage.table)) :
    Handles visit signal conductor stage.table stage.agenda
        ((conductor.collide visit contact elapsed).run visit stage).1
        ((conductor.collide visit contact elapsed).run visit stage).2.table
        ((conductor.collide visit contact elapsed).run visit stage).2.agenda ∧
      (Targets signal (stage.table.drift elapsed) → stage.Calm →
        ((conductor.collide visit contact elapsed).run visit stage).2.Calm) := by
  let before := stage.table.drift elapsed
  let after := (contact.effect? before).getD before
  let ready := (conductor.atInstant visit.now).settle before after contact
  obtain ⟨told, ran, pending, calm⟩ : ∃ told : Stage K C,
      (conductor.collide visit contact elapsed).run visit stage =
          (ready.arm visit).run visit { told with table := after } ∧
        told.agenda = stage.agenda ∧ (Targets signal before → stage.Calm → told.Calm) := by
    by_cases missed : (contact.effect? before).isNone
    · refine ⟨stage.note (.said (.missed visit.agent contact)), ?_, rfl, fun targets => ?_⟩
      · change Plan.run visit (if (contact.effect? before).isNone = true then _ else _) stage = _
        rw [if_pos missed]
        rfl
      · have effect := Contact.effect?_isSome (targets contact announces)
        simp [Option.isNone_iff_eq_none.1 missed] at effect
    · refine ⟨stage, ?_, rfl, fun _ => id⟩
      change Plan.run visit (if (contact.effect? before).isNone = true then _ else _) stage = _
      rw [if_neg missed]
      rfl
  obtain ⟨arms, table, calmly⟩ := arms_run_arm visit ready { told with table := after }
  rw [← ran] at arms table calmly
  rw [table]
  exact ⟨.reacts welcome (pending ▸ arms), fun targets before => calmly (calm targets before)⟩

private theorem handles_paint (visit : Visit) (conductor : Conductor) (stage : Stage K C)
    (elapsed : Millis)
    (welcome : conductor.reaction? visit.now (.beat elapsed) stage.table =
      some (conductor.painted visit.now elapsed stage.table)) :
    Handles visit (.beat elapsed) conductor stage.table stage.agenda
        ((conductor.paint visit elapsed).run visit stage).1
        ((conductor.paint visit elapsed).run visit stage).2.table
        ((conductor.paint visit elapsed).run visit stage).2.agenda ∧
      (stage.Calm → ((conductor.paint visit elapsed).run visit stage).2.Calm) := by
  let moved : Stage K C := { stage with table := stage.table.drift elapsed }
  let ready := (conductor.painted visit.now elapsed stage.table).2
  let drawing : Plan K Unit := Plan.drawAll (stage.table.drift elapsed).frame
  have ran : (conductor.paint visit elapsed).run visit stage =
      (ready.arm visit).run visit (drawing.run visit moved).2 := by
    change Plan.run visit (drawing >>= fun _ => ready.arm visit) moved = _
    rw [Plan.run_bind]
  obtain ⟨canvas, journal, drawn, calm⟩ :=
    Stage.run_drawAll visit (stage.table.drift elapsed).frame moved
  obtain ⟨arms, table, calmly⟩ := arms_run_arm visit ready (drawing.run visit moved).2
  rw [← ran] at arms table calmly
  rw [drawn] at arms table
  rw [table]
  exact ⟨.reacts welcome arms, fun before => calmly (calm before)⟩

/-- A delivery turns the turret for a key, reacts to what is waited for, and ignores the rest. It
complains only about an event that nobody waits for or that finds nothing. -/
theorem handles_run_handle (visit : Visit) (signal : Signal) (conductor : Conductor)
    (stage : Stage K C) :
    Handles visit signal conductor stage.table stage.agenda
        ((conductor.handle visit signal).run visit stage).1
        ((conductor.handle visit signal).run visit stage).2.table
        ((conductor.handle visit signal).run visit stage).2.agenda ∧
      (((conductor.reaction? visit.now signal stage.table).isSome ∨ ¬signal.recurs) →
        (∀ elapsed, Targets signal (stage.table.drift elapsed)) → stage.Calm →
        ((conductor.handle visit signal).run visit stage).2.Calm) := by
  unfold handle
  split
  · next way =>
    refine ⟨.key rfl, ?_⟩
    intro _ _ before
    have turned : ({ stage with table := stage.table.turn way } : Stage K C).Calm := before
    exact Stage.calm_note turned (by rintro _ same; cases same; rfl)
  · next ball side elapsed waits =>
    obtain ⟨handles, calm⟩ := handles_collide visit conductor stage elapsed
      (show (Signal.wall ball side elapsed).contact? = some (.wall ball side) from rfl)
      (by simp [reaction?, waits])
    exact ⟨handles, fun _ targets => calm (targets elapsed)⟩
  · next a b elapsed waits =>
    obtain ⟨handles, calm⟩ := handles_collide visit conductor stage elapsed
      (show (Signal.pair a b elapsed).contact? = some (.between a b) from rfl)
      (by simp [reaction?, waits])
    exact ⟨handles, fun _ targets => calm (targets elapsed)⟩
  · next elapsed waits =>
    obtain ⟨handles, calm⟩ := handles_paint visit conductor stage elapsed
      (by simp [reaction?, waits])
    exact ⟨handles, fun _ _ => calm⟩
  · next signal _ _ notKey notWall notPair notBeat =>
    have recurs : signal.recurs := by
      cases signal with
      | key way => exact absurd rfl (notKey way)
      | wall ball side elapsed => rfl
      | pair a b elapsed => rfl
      | beat elapsed => rfl
    have unwelcome : conductor.reaction? visit.now signal stage.table = none := by
      unfold reaction?
      split
      · next waits => exact absurd rfl (notWall _ _ _ waits)
      · next waits => exact absurd rfl (notPair _ _ _ waits)
      · next waits => exact absurd rfl (notBeat _ waits)
      · rfl
    refine ⟨.ignores recurs unwelcome, ?_⟩
    intro welcome
    simp [unwelcome, recurs] at welcome

end Conductor

end Billiard
