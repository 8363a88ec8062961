import Billiard.Proofs.Conducting
import Billiard.Proofs.Onsets

/-!
Painting only observes. Two runs of one scene that differ in the time between beats, or in whether
there are any, deliver different events, round their delays from different instants and forget what
is settled at different times; yet the same contacts begin at the same instants, and in the end the
balls are at the same places with the same velocities. Where balls exchange momentum, nothing but
these contacts is delivered, so that the contacts are the same in both runs.
-/

namespace Billiard

/-- The contacts that begin with one event after another. -/
noncomputable def Table.beginnings (table : Table ℝ) : List Event → List (Instant × Contact)
  | [] => []
  | event :: more =>
    (event.beginning? table).toList ++ beginnings (event.signal.play table) more

/-- The contacts of some events, with their instants. -/
def contactsOf (events : List Event) : List (Instant × Contact) :=
  (told events).filterMap fun (due, signal) => signal.contact?.map fun contact => (due, contact)

theorem contactsOf_cons (event : Event) (more : List Event) :
    contactsOf (event :: more) =
      (event.signal.contact?.map fun contact => (event.due, contact)).toList ++
        contactsOf more := by
  cases announced : event.signal.contact? <;> simp [contactsOf, told, announced]

/-- Before the last instant, clocks add up. -/
theorem Instant.after_eq_add {now : Instant} {delay : Millis} (early : now.after delay < last) :
    now.after delay = now + delay ∧ (now + delay).toNat = now.toNat + delay.toNat := by
  have most := toNat_last
  rw [UInt64.lt_iff_toNat_lt, toNat_after] at early
  have sum : (now + delay).toNat = now.toNat + delay.toNat := by
    rw [UInt64.toNat_add]
    omega
  refine ⟨UInt64.toNat_inj.1 ?_, sum⟩
  rw [toNat_after, sum]
  omega

/-- What lasts of a table and its conductor: balls are clear of what they could run into, contacts
that are settled and still lie ahead begin within the millisecond, and beats do not come all at
once. -/
structure Orderly (table : Table ℝ) (conductor : Conductor) : Prop where
  sound : table.Sound
  line : table.reach = .line
  sizable : table.response = .elastic → table.Sizable
  clear : table.Clear conductor.settled
  near : Near table conductor.settled
  paced : conductor.Paced

section Orderly

variable {table after last : Table ℝ} {ready waiting next : Conductor} {delay : Millis}
  {signal : Signal} {horizon : Instant} {events : List Event}

/-- Every reaction keeps order, and advances the table. -/
theorem Orderly.react (orderly : Orderly table ready) (resolved : table.Resolved)
    (follows : ready.follows table = some (delay, signal, waiting))
    (reacts : waiting.reaction? (ready.settledAt.after delay) signal table = some (after, next))
    (early : ready.settledAt.after delay < Instant.last) :
    Orderly after next ∧ Advances table ready.settled delay signal after next.settled := by
  obtain ⟨settled, settledAt, _⟩ := Conductor.follows_kept follows
  rw [← settledAt] at reacts early
  obtain ⟨sound, line, sizable, clear, near, paced⟩ := orderly
  rw [← settled] at clear near ⊢
  have arms : ready.Arms ⟨0, 0⟩ table .empty (waiting, .ok ()) _ := .waits follows
  have paced := paced.of_arms arms
  have alike := Conductor.resembles_of_reaction? reacts
  have cleared := clear.react sound line resolved.heeded sizable follows reacts
  have advances := Conductor.advances_of_reaction? sound line resolved clear paced follows reacts
    early
  refine ⟨⟨sound.of_resembles alike, alike.reach.trans line, ?_, cleared, ?_, ?_⟩, advances⟩
  · intro elastic
    exact (sizable (alike.response.symm.trans elastic)).of_resembles alike
  · exact advances.near (sound.of_resembles alike) cleared near
  · exact paced.of_reaction? reacts

/-- If what follows lies beyond the horizon, or nothing does, no contact begins within it. -/
theorem Orderly.rests (orderly : Orderly table ready) (resolved : table.Resolved)
    (beyond : ∀ delay signal waiting, ready.follows table = some (delay, signal, waiting) →
      horizon < ready.settledAt.after delay) :
    Unfolds horizon ready.settledAt table ready.settled []
      (table.drift (horizon - ready.settledAt)) := by
  obtain ⟨sound, line, _, _, _, _⟩ := orderly
  refine .rests fun contact x comes isOpen => ?_
  cases follows : ready.follows table with
  | none =>
    have silent := (Conductor.follows_eq_none.1 follows).2
    have uncounted : Scalar.wholeMillis? x = none := by
      by_contra counts
      obtain ⟨whole, counted⟩ := Option.ne_none_iff_exists'.1 counts
      have member := (Table.mem_forecasts_iff_of_onset sound line resolved comes).2 counted
      exact isOpen (Table.nextContact?_eq_none.1 silent _ member)
    have far := Scalar.large_of_wholeMillis?_eq_none (Contact.onset?_nonneg comes) uncounted
    exact (Millis.toNat_lt_floor far).trans_le (Nat.le_add_left _ _)
  | some forecast =>
    obtain ⟨delay, signal, waiting⟩ := forecast
    have late := beyond _ _ _ follows
    rw [← (Conductor.follows_kept follows).1] at isOpen
    have early := Conductor.early_of_follows sound line resolved follows comes isOpen
    have whole := Nat.le_floor early
    rw [UInt64.lt_iff_toNat_lt, Instant.toNat_after] at late
    omega

/-- Under a conductor a table unfolds: what begins up to a horizon comes by itself, and where balls
exchange momentum nothing else is announced. -/
theorem Simulation.Conducts.unfolds (late : horizon < Instant.last)
    (conducts : Conducts Table.Resolved horizon table ready events last)
    (orderly : Orderly table ready) (past : ready.settledAt ≤ horizon) :
    lastDue ready.settledAt events ≤ horizon ∧
      Unfolds horizon ready.settledAt table ready.settled (table.beginnings events)
        (last.drift (horizon - lastDue ready.settledAt events)) ∧
      (table.response = .elastic → table.beginnings events = contactsOf events) := by
  induction conducts with
  | rests fair beyond => exact ⟨past, orderly.rests fair beyond, fun _ => rfl⟩
  | @reacts table after last ready waiting next delay event more fair follows due within reacts _ _
      ih =>
    have played := Signal.play_of_reaction? reacts
    have settledAt := Conductor.settledAt_of_reaction? reacts
    have response := (Conductor.resembles_of_reaction? reacts).response
    have early : ready.settledAt.after delay < Instant.last :=
      due ▸ UInt64.lt_of_le_of_lt within late
    rw [due] at reacts
    obtain ⟨ordered, advances⟩ := orderly.react fair follows reacts early
    obtain ⟨inside, later, all⟩ := ih ordered (settledAt ▸ within)
    rw [settledAt] at inside later
    rw [lastDue_cons, Table.beginnings, ← played]
    refine ⟨inside, ?_, fun elastic => ?_⟩
    · obtain ⟨sum, clock⟩ := Instant.after_eq_add early
      refine .of_advances advances orderly.near (due.trans sum) ?_ later
      rw [← clock, ← sum, ← due]
      exact UInt64.le_iff_toNat_le.1 within
    · rw [contactsOf_cons, advances.beginning?_of_elastic elastic, all (response.trans elastic)]

end Orderly

/-- No ball overlaps a wall's line and, where balls exchange momentum, no two balls overlap and none
is so small that its mass is negligible. -/
structure Table.Spread (table : Table ℝ) : Prop where
  line : table.reach = .line
  aside : ∀ ball ∈ table.balls, ∀ wall ∈ table.walls, ball.radius ≤ ball.distance wall
  sizable : table.response = .elastic → table.Sizable
  apart : table.response = .elastic → table.balls.Pairwise fun ball other =>
    ball.radius + other.radius ≤ ball.position.dist other.position

/-- A checked scene is started and runs up to a horizon without an error, and throughout the run its
table is resolved. -/
structure Scene.Runs {C : Type} [Canvas ℝ C] (scene : Scene ℝ) (canvas : C) (horizon : Instant)
    (first last : Simulation ℝ C Conductor) : Prop where
  made : scene.conduct id canvas = .ok first
  ended : ∃ rounds count, first.start.2.runUntil rounds horizon = some (.ok count, last) ∧
    first.start.2.Throughout Table.Resolved (first.start.2.runMoves horizon rounds)

namespace Table

variable {table : Table ℝ}

/-- A ball that is a radius away from a wall's line is on one side of it. -/
theorem exists_beside (sound : table.Sound)
    (aside : ∀ ball ∈ table.balls, ∀ wall ∈ table.walls, ball.radius ≤ ball.distance wall)
    (id : BallId) (place : WallId) :
    ∃ side : ℝ, (side = 1 ∨ side = -1) ∧ table.Beside side id place [] := by
  have beside {side : ℝ} (toward : ∀ ball wall, table.balls[id]? = some ball →
      table.walls[place]? = some wall → side * ball.offset wall = |ball.offset wall|) :
      table.Beside side id place [] := by
    intro ball wall here there
    refine ⟨?_, fun settled => by cases settled⟩
    have ballIn := List.mem_of_getElem? here
    have wallIn := List.mem_of_getElem? there
    have long : 0 < wall.span.norm :=
      pos_of_mul_pos_right (sound.berth_pos ballIn wallIn) (sound.balls ball ballIn).le
    rw [toward ball wall here there, Ball.berth, ← le_div_iff₀ long]
    exact aside ball ballIn wall wallIn
  by_cases above : ∀ ball wall, table.balls[id]? = some ball → table.walls[place]? = some wall →
      0 ≤ ball.offset wall
  · refine ⟨1, .inl rfl, beside fun ball wall here there => ?_⟩
    rw [one_mul, abs_of_nonneg (above ball wall here there)]
  · refine ⟨-1, .inr rfl, beside fun ball wall here there => ?_⟩
    have below : ball.offset wall ≤ 0 := by
      by_contra positive
      refine above fun ball' wall' here' there' => ?_
      obtain rfl := Option.some.inj (here.symm.trans here')
      obtain rfl := Option.some.inj (there.symm.trans there')
      exact (not_le.1 positive).le
    rw [neg_one_mul, abs_of_nonpos below]

theorem Spread.clear (spread : table.Spread) (sound : table.Sound) : table.Clear [] := by
  refine ⟨exists_beside sound spread.aside, ?_⟩
  intro elastic a b less ball other here there
  obtain ⟨inA, rfl⟩ := List.getElem?_eq_some_iff.1 here
  obtain ⟨inB, rfl⟩ := List.getElem?_eq_some_iff.1 there
  have size := spread.sizable elastic _ (List.getElem_mem inA)
  have size' := spread.sizable elastic _ (List.getElem_mem inB)
  refine ⟨?_, fun settled => by cases settled⟩
  rw [Ball.clearance_nonneg_iff (by linarith)]
  exact List.pairwise_iff_getElem.1 (spread.apart elastic) a b inA inB less

theorem velocities_drift (elapsed : Millis) (table : Table ℝ) :
    (table.drift elapsed).balls.map (·.velocity) = table.balls.map (·.velocity) := by
  simp [drift, Ball.drift, Function.comp_def]

end Table

namespace Scene.Runs

variable {C : Type} [Canvas ℝ C] {scene : Scene ℝ} {canvas : C} {horizon : Instant}
  {first last : Simulation ℝ C Conductor}

/-- In a run a scene unfolds. -/
theorem unfolds (runs : scene.Runs canvas horizon first last) (spread : scene.table.Spread)
    (early : horizon < Instant.last) :
    lastDue 0 last.deliveries ≤ horizon ∧
      Unfolds horizon 0 scene.table [] (scene.table.beginnings last.deliveries)
        (last.stage.table.drift (horizon - lastDue 0 last.deliveries)) ∧
      (scene.table.response = .elastic →
        scene.table.beginnings last.deliveries = contactsOf last.deliveries) := by
  obtain ⟨made, rounds, count, ended, resolved⟩ := runs
  obtain ⟨moving, sound⟩ := Scene.fault?_eq_none_iff_sound.1 (Simulation.Poised.of_conduct made).2.2
  have orderly : Orderly scene.table ((Conductor.new scene.interval).restarted 0) :=
    ⟨sound, spread.line, spread.sizable, spread.clear sound, (fun _ _ _ held => by cases held),
      (Conductor.paced_new moving).restarted 0⟩
  obtain ⟨armed, table, silent⟩ := Simulation.Armed.of_conduct made
  obtain ⟨more, delivered, conducts⟩ := armed.conducts resolved ended
  rw [silent, List.nil_append] at delivered
  rw [table, ← delivered] at conducts
  exact conducts.unfolds early orderly UInt64.zero_le

/-- Where a conductor conducts a checked scene, the scene runs. -/
theorem of_conducts {events : List Event} {final : Table ℝ} (fine : scene.fault? = none)
    (conducts : Simulation.Conducts Table.Resolved horizon scene.table
      ((Conductor.new scene.interval).restarted 0) events final) (canvas : C) :
    ∃ first last : Simulation ℝ C Conductor, scene.Runs canvas horizon first last ∧
      told last.deliveries = told events := by
  obtain ⟨first, made⟩ := Scene.exists_conduct fine canvas
  obtain ⟨armed, table, silent⟩ := Simulation.Armed.of_conduct made
  obtain ⟨rounds, last, more, delivered, same, _, throughout, ended⟩ :=
    armed.exists_runFrom conducts table
  rw [silent, List.nil_append] at delivered
  exact ⟨first, last, ⟨made, rounds, _, ended 0, throughout⟩, delivered ▸ same⟩

theorem startedOnce (runs : scene.Runs canvas horizon first last) : first.StartedOnce 0 last := by
  obtain ⟨made, rounds, count, ended, _⟩ := runs
  have performed : (Simulation.Call.runUntil horizon).perform rounds first.start.2 =
      some (.ok (.count count), last) := by
    rw [Simulation.Call.perform, ended]
    rfl
  exact .intro .rest (Simulation.begins_of_conduct made).1
    (.call (.runUntil horizon) rounds .rest (by simp) performed)

end Scene.Runs

namespace Conductor

variable {K : Type} [Scalar K] {table after : Table K} {now : Instant} {signal : Signal}
  {conductor ready : Conductor} {visit : Visit} {agenda rearmed : Agenda}
  {outcome : Outcome K Conductor}

theorem contacts_of_arms (arms : ready.Arms visit table agenda outcome rearmed) :
    outcome.1.contacts = ready.contacts := by
  cases arms with
  | stalls _ => rfl
  | waits follows =>
    rcases follows_cases follows with ⟨_, _, _, _, ⟨_, rfl⟩ | ⟨_, _, rfl⟩⟩ | ⟨_, _, _, rfl, _⟩ <;>
      rfl

/-- A conductor counts the contacts that it deals with. -/
theorem contacts_of_reaction?
    (reacts : conductor.reaction? now signal table = some (after, ready)) :
    ready.contacts = conductor.contacts + signal.contact?.toList.length := by
  have counted (contact : Contact) (elapsed : Millis) :
      (conductor.collided now contact elapsed table).2.contacts = conductor.contacts + 1 := by
    simp only [collided, settle, atInstant]
    split <;> rfl
  unfold reaction? at reacts
  split at reacts
  · exact congrArg (·.2.contacts) (Option.some.inj reacts) ▸ counted _ _
  · exact congrArg (·.2.contacts) (Option.some.inj reacts) ▸ counted _ _
  · cases reacts
    rfl
  · cases reacts

end Conductor

namespace Simulation

section Counting

variable {K C : Type} [Scalar K] [Canvas K C] {scene : Scene K} {canvas : C} {since : Instant}
  {first last : Simulation K C Conductor}

/-- In a run that starts once, the conductor counts the contacts that were delivered. -/
theorem StartedOnce.contacts (made : scene.conduct id canvas = .ok first)
    (once : first.StartedOnce since last) :
    ∃ conductor, last.agents = [conductor] ∧
      conductor.contacts = (contactsOf last.deliveries).length := by
  obtain ⟨conductor, poised, counts⟩ := once.induct made
    (motive := fun last conductor => conductor.contacts = (contactsOf last.deliveries).length)
    (by
      intro after waiting _ _ _ keys _ arms
      have none : contactsOf after.deliveries = [] := by
        rw [contactsOf, List.filterMap_eq_nil_iff]
        intro pair told
        obtain ⟨event, member, rfl⟩ := List.mem_map.1 told
        obtain ⟨way, key⟩ := Signal.exists_key (keys event member)
        simp [key, Signal.contact?]
      rw [none]
      exact Conductor.contacts_of_arms arms)
    (by
      intro simulation after conductor waiting _ passes counts
      have grown (event : Event) (events : List Event) :
          (contactsOf (events ++ [event])).length =
            (contactsOf events).length + event.signal.contact?.toList.length := by
        cases announced : event.signal.contact? <;> simp [contactsOf, told, announced]
      cases passes with
      | rests _ _ deliveries => rw [deliveries, counts]
      | turns key _ _ deliveries => rw [deliveries, grown, counts, key]; rfl
      | reacts _ _ deliveries reacts arms =>
        rw [deliveries, grown, ← counts, ← Conductor.contacts_of_reaction? reacts]
        exact Conductor.contacts_of_arms arms)
  exact ⟨conductor, poised.alone, counts⟩

end Counting

/-- What a conductor does with a scene and beats, a run does. -/
theorem exists_runs {scene : Scene ℝ} {beat : Millis} {horizon : Instant} {events : List Event}
    {final : Table ℝ} (sound : scene.table.Sound) (positive : beat ≠ 0)
    (conducts : Conducts Table.Resolved horizon scene.table
      ((Conductor.new (some beat)).restarted 0) events final) :
    ∃ first last : Simulation ℝ (Blank ℝ) Conductor,
      { scene with interval := some beat }.Runs (⟨⟩ : Blank ℝ) horizon first last ∧
        told last.deliveries = told events := by
  have moving : some beat ≠ some 0 := by simpa using positive
  have fine : { scene with interval := some beat }.fault? = none :=
    Scene.fault?_eq_none_iff_sound.2 ⟨moving, sound⟩
  exact Scene.Runs.of_conducts fine conducts (⟨⟩ : Blank ℝ)

section Encounter

/-- The balls of the duel, but they pass through each other. -/
def encounter {K : Type} [Scalar K] : Scene K :=
  { (duel : Scene K) with table := { (duel : Scene K).table with response := .pass } }

variable {delay elapsed : Millis} {conductor : Conductor} {now : Instant}

theorem sound_encounter : (encounter : Scene ℝ).table.Sound := by
  constructor
  · intro wall member
    cases member
  · intro ball member
    rcases List.mem_pair.1 member with rfl | rfl <;> norm_num

theorem spread_encounter : (encounter : Scene ℝ).table.Spread where
  line := rfl
  aside _ _ wall member := by cases member
  sizable elastic := by cases elastic
  apart elastic := by cases elastic

theorem spell?_encounter (elapsed : Millis) :
    (Contact.pair 0 1).spell? ((encounter : Scene ℝ).table.drift elapsed) =
      some ⟨400 - elapsed.toNat, 600 - elapsed.toNat⟩ := by
  have touch : 0 < duelists.1.discriminant duelists.2 := by
    rw [discriminant_duelists]
    norm_num
  have begun : (Contact.pair 0 1).spell? (encounter : Scene ℝ).table = some ⟨400, 600⟩ := by
    change duelists.1.ballSpell? duelists.2 = _
    rw [Ball.ballSpell?, if_pos touch, touches_duelists]
  rw [Contact.spell?_drift, begun]
  rfl

theorem resolved_encounter (elapsed : Millis) :
    ((encounter : Scene ℝ).table.drift elapsed).Resolved := by
  refine ⟨fun _ _ wall member => (by cases member),
    List.pairwise_pair.2 ⟨.inr ?_, fun _ _ _ => ?_⟩⟩
  · change _ ≤ duelists.1.pace duelists.2
    rw [pace_duelists]
    change (1e-12 : ℝ) ≤ 400
    norm_num
  · have spell : (duelists.1.drift elapsed).ballSpell? (duelists.2.drift elapsed) = _ :=
      spell?_encounter elapsed
    obtain ⟨_, same⟩ := Option.ite_none_right_eq_some.1 spell
    rw [Option.some.injEq, Spell.mk.injEq] at same
    change _ < ((duelists.1.drift elapsed).touches (duelists.2.drift elapsed)).2 -
      ((duelists.1.drift elapsed).touches (duelists.2.drift elapsed)).1
    rw [same.1, same.2, sub_sub_sub_cancel_right]
    change (1e-6 : ℝ) < _
    norm_num

/-- No contact is ever forecast but that of the two balls. -/
theorem contact_encounter {contact : Contact}
    (member : ⟨delay, contact⟩ ∈ ((encounter : Scene ℝ).table.drift elapsed).forecasts) :
    contact = .pair 0 1 :=
  Table.contact_of_two rfl rfl (Table.at_of_mem_forecasts member)

theorem nextContact?_encounter
    (noticed : Spell.notice? ⟨400 - elapsed.toNat, 600 - elapsed.toNat⟩ =
      some (delay.toNat : ℝ)) :
    ((encounter : Scene ℝ).table.drift elapsed).nextContact? [] = some ⟨delay, .pair 0 1⟩ := by
  have sound := sound_encounter.of_resembles (.drift elapsed _)
  have forecast (whole : Millis) : ⟨whole, .pair 0 1⟩ ∈
      ((encounter : Scene ℝ).table.drift elapsed).forecasts ↔ whole = delay := by
    rw [Table.mem_forecasts_iff sound rfl (resolved_encounter elapsed), spell?_encounter,
      Option.bind_some, noticed, Option.bind_some, Scalar.wholeMillis?_toNat, Option.some.injEq]
    exact eq_comm
  cases next : ((encounter : Scene ℝ).table.drift elapsed).nextContact? [] with
  | none => cases Table.nextContact?_eq_none.1 next _ ((forecast delay).2 rfl)
  | some soonest =>
    obtain ⟨whole, contact⟩ := soonest
    have member := (Table.nextContact?_mem next).1
    obtain rfl := contact_encounter member
    obtain rfl := (forecast whole).1 member
    rfl

theorem nextContact?_encounter_settled :
    ((encounter : Scene ℝ).table.drift elapsed).nextContact? [.pair 0 1] = none := by
  rw [Table.nextContact?_eq_none]
  rintro ⟨delay, contact⟩ member
  exact List.mem_singleton.2 (contact_encounter member)

/-- When the two balls meet, or part, they only drift. -/
theorem reaction?_encounter (waits : conductor.phase = .contact) (later : now ≠ conductor.settledAt)
    (fits : elapsed.toNat + delay.toNat < UInt64.size) :
    conductor.reaction? now (.pair 0 1 delay) ((encounter : Scene ℝ).table.drift elapsed) =
      some ((encounter : Scene ℝ).table.drift (elapsed + delay),
        { conductor with
          settled := [.pair 0 1], settledAt := now, contacts := conductor.contacts + 1 }) := by
  have there : (Contact.pair 0 1).At ((encounter : Scene ℝ).table.drift (elapsed + delay)) :=
    ⟨Nat.zero_lt_one, Nat.one_lt_two⟩
  obtain ⟨met, effect⟩ := Option.isSome_iff_exists.1 (Contact.effect?_isSome there)
  obtain rfl := Table.Passes.eq_of_effect? ⟨rfl, 0, 1, rfl⟩ effect
  refine Conductor.reaction?_pair waits later ?_
  rw [Table.drift_drift fits]
  exact effect

theorem beat_encounter (waits : conductor.phase = .beat)
    (fits : elapsed.toNat + delay.toNat < UInt64.size) :
    conductor.reaction? now (.beat delay) ((encounter : Scene ℝ).table.drift elapsed) =
      some ((encounter : Scene ℝ).table.drift (elapsed + delay),
        { conductor with
          remaining := conductor.interval.getD conductor.remaining
          settled := [], settledAt := now, frames := conductor.frames + 1 }) := by
  simp [Conductor.reaction?, waits, Conductor.painted, Table.drift_drift fits]

/-- The balls of the encounter meet when they are noticed, if that is before the next beat. -/
theorem follows_encounter {beat : Millis} (beats : conductor.interval = some beat)
    (forgot : conductor.settled = []) (early : delay < conductor.remaining)
    (noticed : Spell.notice? ⟨400 - elapsed.toNat, 600 - elapsed.toNat⟩ =
      some (delay.toNat : ℝ)) :
    conductor.follows ((encounter : Scene ℝ).table.drift elapsed) =
      some (delay, .pair 0 1 delay,
        { conductor with phase := .contact, remaining := conductor.remaining - delay }) := by
  have next := nextContact?_encounter noticed
  rw [← forgot] at next
  exact Conductor.follows_contact beats next early

/-- Once they have met, only a beat follows. -/
theorem follows_encounter_settled {beat : Millis} (beats : conductor.interval = some beat)
    (met : conductor.settled = [.pair 0 1]) :
    conductor.follows ((encounter : Scene ℝ).table.drift elapsed) =
      some (conductor.remaining, .beat conductor.remaining, { conductor with phase := .beat }) :=
  Conductor.follows_beat beats (met ▸ nextContact?_encounter_settled)

/-- The balls meet after four hundred milliseconds. -/
theorem notice?_meeting : Spell.notice? ⟨400 - (0 : Millis).toNat, 600 - (0 : Millis).toNat⟩ =
    some ((400 : Millis).toNat : ℝ) := by
  have parts : (0 : Millis).toNat = 0 ∧ (400 : Millis).toNat = 400 := ⟨rfl, rfl⟩
  rw [parts.1, parts.2, Spell.notice?, Prediction.firstContact?_of_le (by norm_num)]
  norm_num

/-- A hundred milliseconds later, they part after another hundred. -/
theorem notice?_parting : Spell.notice? ⟨400 - (500 : Millis).toNat, 600 - (500 : Millis).toNat⟩ =
    some ((100 : Millis).toNat : ℝ) := by
  have parts : (500 : Millis).toNat = 500 ∧ (100 : Millis).toNat = 100 := ⟨rfl, rfl⟩
  rw [parts.1, parts.2, Spell.notice?, Prediction.firstContact?_of_le (by norm_num)]
  norm_num

/-- Whatever the beats, nothing more comes within seven hundred milliseconds if the next beat is due
after that and the balls have met. -/
theorem rests_encounter {beat : Millis} (beats : conductor.interval = some beat)
    (met : conductor.settled = [.pair 0 1])
    (late : 700 < conductor.settledAt.after conductor.remaining) :
    Conducts Table.Resolved 700 ((encounter : Scene ℝ).table.drift elapsed) conductor []
      ((encounter : Scene ℝ).table.drift elapsed) :=
  .rests_until_beat (resolved_encounter elapsed) beats (met ▸ nextContact?_encounter_settled) late

/-- If the first beat is due after four hundred milliseconds, the balls meet before it. -/
theorem conducts_encounter {beat : Millis} {more : List Event} {final : Table ℝ}
    (later : 400 < beat)
    (rest : Conducts Table.Resolved 700 ((encounter : Scene ℝ).table.drift 400)
      ⟨.contact, some beat, beat - 400, [.pair 0 1], 400, 0, 1⟩ more final) :
    Conducts Table.Resolved 700 (encounter : Scene ℝ).table
      ((Conductor.new (some beat)).restarted 0) (⟨0, 0, 400, .pair 0 1 400⟩ :: more) final := by
  have begins : ((Conductor.new (some beat)).restarted 0).follows
      ((encounter : Scene ℝ).table.drift 0) =
        some (400, .pair 0 1 400, ⟨.contact, some beat, beat - 400, [], 0, 0, 0⟩) :=
    follows_encounter rfl rfl later notice?_meeting
  have meets : Conductor.reaction? 400 (.pair 0 1 400)
      ⟨.contact, some beat, beat - 400, [], 0, 0, 0⟩ ((encounter : Scene ℝ).table.drift 0) =
        some ((encounter : Scene ℝ).table.drift 400,
          ⟨.contact, some beat, beat - 400, [.pair 0 1], 400, 0, 1⟩) :=
    reaction?_encounter rfl (by decide : (400 : Instant) ≠ 0) (by decide)
  have resolved := resolved_encounter 0
  have due : (400 : Instant) = Instant.after 0 400 := rfl
  rw [Table.drift_zero] at begins meets resolved
  exact .reacts resolved begins due (by decide) meets (Conductor.follows_ne_none rfl) rest

/-- With a beat every second, the balls meet, and no beat comes. -/
theorem conducts_encounter_slow :
    Conducts Table.Resolved 700 (encounter : Scene ℝ).table
      ((Conductor.new (some 1000)).restarted 0) [⟨0, 0, 400, .pair 0 1 400⟩]
      ((encounter : Scene ℝ).table.drift 400) :=
  conducts_encounter (by decide) (rests_encounter rfl rfl (by decide))

/-- With two beats a second, the balls meet, a beat comes, and then the balls part. -/
theorem conducts_encounter_fast :
    Conducts Table.Resolved 700 (encounter : Scene ℝ).table
      ((Conductor.new (some 500)).restarted 0)
      [⟨0, 0, 400, .pair 0 1 400⟩, ⟨1, 0, 500, .beat 100⟩, ⟨2, 0, 600, .pair 0 1 100⟩]
      ((encounter : Scene ℝ).table.drift 600) := by
  have parts : Conducts Table.Resolved 700 ((encounter : Scene ℝ).table.drift 500)
      ⟨.beat, some 500, 500, [], 500, 1, 1⟩ [⟨2, 0, 600, .pair 0 1 100⟩]
      ((encounter : Scene ℝ).table.drift 600) :=
    .reacts (resolved_encounter 500) (follows_encounter rfl rfl (by decide) notice?_parting) rfl
      (by decide) (reaction?_encounter rfl (by decide) (by decide)) (Conductor.follows_ne_none rfl)
      (rests_encounter rfl rfl (by decide))
  exact conducts_encounter (by decide)
    (.reacts (resolved_encounter 400) (follows_encounter_settled rfl rfl) rfl (by decide)
      (beat_encounter rfl (by decide)) (Conductor.follows_ne_none rfl) parts)

/-- The encounter seen once a second and twice a second. -/
theorem exists_runs_encounter :
    ∃ first last first' last' : Simulation ℝ (Blank ℝ) Conductor,
      { (encounter : Scene ℝ) with interval := some 1000 }.Runs (⟨⟩ : Blank ℝ) 700 first last ∧
      { (encounter : Scene ℝ) with interval := some 500 }.Runs (⟨⟩ : Blank ℝ) 700 first' last' ∧
      told last.deliveries = [(400, .pair 0 1 400)] ∧
      told last'.deliveries = [(400, .pair 0 1 400), (500, .beat 100), (600, .pair 0 1 100)] := by
  obtain ⟨first, last, runs, told⟩ :=
    exists_runs sound_encounter (by decide) conducts_encounter_slow
  obtain ⟨first', last', runs', told'⟩ :=
    exists_runs sound_encounter (by decide) conducts_encounter_fast
  exact ⟨first, last, first', last', runs, runs', told, told'⟩

end Encounter

section Rebound

variable {elapsed : Millis} {conductor : Conductor} {now : Instant}

/-- After the duel, the balls part for as long as nothing else happens. -/
theorem exists_duelled_drift (elapsed : Millis) : ∃ one other : Ball ℝ,
    (duelled.drift elapsed).balls = [one, other] ∧ 0 ≤ one.clearance other ∧
      0 < one.parting other ∧ one.pace other = 400 := by
  refine ⟨rebounded.1.drift elapsed, rebounded.2.drift elapsed, ?_, ?_, ?_, pace_rebounded⟩
  · rw [duelled, exchange_duelists]
    rfl
  · rw [Ball.clearance_drift, clearance_rebounded, parting_rebounded, pace_rebounded]
    positivity
  · rw [Ball.parting_drift, parting_rebounded, pace_rebounded]
    positivity

theorem sound_duel : (duel : Scene ℝ).table.Sound :=
  (Scene.fault?_eq_none_iff_sound.1 duel_fine).2

theorem resolved_duel : (duel : Scene ℝ).table.Resolved :=
  ⟨fun _ _ wall member => (by cases member), duel_discerned.discernible⟩

theorem resolved_duelled (elapsed : Millis) : (duelled.drift elapsed).Resolved := by
  obtain ⟨one, other, two, _, parting, pace⟩ := exists_duelled_drift elapsed
  refine ⟨fun _ _ wall member => (by cases member), ?_⟩
  rw [Table.Discernible, two]
  refine List.pairwise_pair.2 ⟨.inr ?_, fun _ closer => absurd closer (not_lt.2 parting.le)⟩
  rw [pace]
  norm_num [Scalar.negligible_eq]

theorem nextContact?_duelled (settled : List Contact) :
    (duelled.drift elapsed).nextContact? settled = none := by
  obtain ⟨one, other, two, clear, parting, _⟩ := exists_duelled_drift elapsed
  rw [Table.nextContact?_eq_none]
  rintro ⟨delay, contact⟩ member
  have length : (duelled.drift elapsed).balls.length = 2 := congrArg List.length two
  obtain rfl := Table.contact_of_two rfl length (Table.at_of_mem_forecasts member)
  obtain ⟨_, first, second, here, there, forecast⟩ := Table.pair_mem_forecasts.1 member
  rw [two] at here there
  cases here
  cases there
  exact absurd (Ball.closer_of_untilBall? clear forecast) (not_lt.2 parting.le)

theorem follows_duelled {beat : Millis} (beats : conductor.interval = some beat) :
    conductor.follows (duelled.drift elapsed) =
      some (conductor.remaining, .beat conductor.remaining, { conductor with phase := .beat }) :=
  Conductor.follows_beat beats (nextContact?_duelled _)

/-- The contact of the duel comes before a beat that is due after it. -/
theorem follows_duel {beat : Millis} (later : 400 < beat) :
    ((Conductor.new (some beat)).restarted 0).follows (duel : Scene ℝ).table =
      some (400, .pair 0 1 400, { (Conductor.new (some beat)).restarted 0 with
        phase := .contact, remaining := beat - 400 }) := by
  have beats : ((Conductor.new (some beat)).restarted 0).interval = some beat := rfl
  exact Conductor.follows_contact beats nextContact?_duel later

theorem reaction?_duel (waits : conductor.phase = .contact) (later : now ≠ conductor.settledAt) :
    conductor.reaction? now (.pair 0 1 400) (duel : Scene ℝ).table =
      some (duelled.drift 0, { conductor with
        settled := [.pair 0 1], settledAt := now, contacts := conductor.contacts + 1 }) := by
  rw [Table.drift_zero]
  exact Conductor.reaction?_pair waits later effect?_duel

/-- Whatever the beats, nothing comes after the duel before the next beat. -/
theorem rests_duelled {beat : Millis} {horizon : Instant} (beats : conductor.interval = some beat)
    (late : horizon < conductor.settledAt.after conductor.remaining) :
    Conducts Table.Resolved horizon (duelled.drift elapsed) conductor []
      (duelled.drift elapsed) :=
  .rests_until_beat (resolved_duelled elapsed) beats (nextContact?_duelled _) late

/-- If the first beat is due after four hundred milliseconds, the balls of the duel meet before
it. -/
theorem conducts_duel {beat : Millis} {more : List Event} {final : Table ℝ} (later : 400 < beat)
    (rest : Conducts Table.Resolved 700 (duelled.drift 0)
      ⟨.contact, some beat, beat - 400, [.pair 0 1], 400, 0, 1⟩ more final) :
    Conducts Table.Resolved 700 (duel : Scene ℝ).table ((Conductor.new (some beat)).restarted 0)
      (⟨0, 0, 400, .pair 0 1 400⟩ :: more) final := by
  have meets : Conductor.reaction? 400 (.pair 0 1 400)
      ⟨.contact, some beat, beat - 400, [], 0, 0, 0⟩ (duel : Scene ℝ).table =
        some (duelled.drift 0, ⟨.contact, some beat, beat - 400, [.pair 0 1], 400, 0, 1⟩) :=
    reaction?_duel rfl (by decide : (400 : Instant) ≠ 0)
  have due : (400 : Instant) = Instant.after 0 400 := rfl
  exact .reacts resolved_duel (follows_duel later) due (by decide) meets
    (Conductor.follows_ne_none rfl) rest

/-- With a beat every second, no beat comes. -/
theorem conducts_duel_slow :
    Conducts Table.Resolved 700 (duel : Scene ℝ).table ((Conductor.new (some 1000)).restarted 0)
      [⟨0, 0, 400, .pair 0 1 400⟩] (duelled.drift 0) :=
  conducts_duel (by decide) (rests_duelled rfl (by decide))

/-- With two beats a second, a beat comes after they have met. -/
theorem conducts_duel_fast :
    Conducts Table.Resolved 700 (duel : Scene ℝ).table ((Conductor.new (some 500)).restarted 0)
      [⟨0, 0, 400, .pair 0 1 400⟩, ⟨1, 0, 500, .beat 100⟩] ((duelled.drift 0).drift 100) := by
  refine conducts_duel (by decide) (.reacts (resolved_duelled 0) (follows_duelled rfl) rfl
    (by decide) rfl (Conductor.follows_ne_none rfl) ?_)
  rw [Table.drift_drift (by decide)]
  exact rests_duelled rfl (by decide)

theorem spread_duel : (duel : Scene ℝ).table.Spread where
  line := rfl
  aside _ _ wall member := by cases member
  sizable _ ball member := by
    rcases List.mem_pair.1 member with rfl | rfl <;> norm_num
  apart _ := List.pairwise_pair.2 clear_duelists

end Rebound

variable {C C' : Type} [Canvas ℝ C] [Canvas ℝ C'] {scene : Scene ℝ} {canvas : C} {canvas' : C'}
  {interval interval' : Option Millis} {horizon : Instant} {first last : Simulation ℝ C Conductor}
  {first' last' : Simulation ℝ C' Conductor}

/-- Painting only observes. Let no ball of a scene overlap a wall's line and, where balls exchange
momentum, no other ball, and let it run twice up to a horizon, with different times between beats or
without beats. If throughout both runs the table is resolved, then in the end every ball has the
same velocity in both; and when both tables have drifted from the last delivery to the horizon, they
are the same. -/
theorem painting_only_observes (spread : scene.table.Spread) (early : horizon < Instant.last)
    (runs : { scene with interval := interval }.Runs canvas horizon first last)
    (runs' : { scene with interval := interval' }.Runs canvas' horizon first' last') :
    last.stage.table.balls.map (·.velocity) = last'.stage.table.balls.map (·.velocity) ∧
      lastDue 0 last.deliveries ≤ horizon ∧ lastDue 0 last'.deliveries ≤ horizon ∧
      last.stage.table.drift (horizon - lastDue 0 last.deliveries) =
        last'.stage.table.drift (horizon - lastDue 0 last'.deliveries) := by
  obtain ⟨inside, unfolds, _⟩ := runs.unfolds spread early
  obtain ⟨inside', unfolds', _⟩ := runs'.unfolds spread early
  obtain ⟨_, same⟩ := unfolds.unique unfolds'
  have velocities := congrArg (·.balls.map (·.velocity)) same
  simp only [Table.velocities_drift] at velocities
  exact ⟨velocities, inside, inside', same⟩

/-- In the encounter, painted once a second and twice a second. -/
theorem painting_only_observes_encounter :
    ∃ first last first' last' : Simulation ℝ (Blank ℝ) Conductor,
      (encounter : Scene ℝ).table.Spread ∧ (700 : Instant) < Instant.last ∧
      { (encounter : Scene ℝ) with interval := some 1000 }.Runs (⟨⟩ : Blank ℝ) 700 first last ∧
      { (encounter : Scene ℝ) with interval := some 500 }.Runs (⟨⟩ : Blank ℝ) 700 first' last' ∧
      told last.deliveries = [(400, .pair 0 1 400)] ∧
      told last'.deliveries = [(400, .pair 0 1 400), (500, .beat 100), (600, .pair 0 1 100)] ∧
      last.stage.table.balls.map (·.velocity) = last'.stage.table.balls.map (·.velocity) ∧
      lastDue 0 last.deliveries ≤ 700 ∧ lastDue 0 last'.deliveries ≤ 700 ∧
      last.stage.table.drift (700 - lastDue 0 last.deliveries) =
        last'.stage.table.drift (700 - lastDue 0 last'.deliveries) := by
  obtain ⟨first, last, first', last', runs, runs', told, told'⟩ := exists_runs_encounter
  have early : (700 : Instant) < Instant.last := by decide
  exact ⟨first, last, first', last', spread_encounter, early, runs, runs', told, told',
    painting_only_observes spread_encounter early runs runs'⟩

/-- The contacts that begin do not depend on the beats. In two runs as before, the same contacts
begin, at the same instants; and where balls exchange momentum, these are all that are delivered, so
that both conductors have counted the same number. -/
theorem contacts_begin_alike (spread : scene.table.Spread) (early : horizon < Instant.last)
    (runs : { scene with interval := interval }.Runs canvas horizon first last)
    (runs' : { scene with interval := interval' }.Runs canvas' horizon first' last') :
    scene.table.beginnings last.deliveries = scene.table.beginnings last'.deliveries ∧
      (scene.table.response = .elastic →
        contactsOf last.deliveries = contactsOf last'.deliveries ∧
          last.agents.map (·.contacts) = last'.agents.map (·.contacts)) := by
  obtain ⟨_, unfolds, all⟩ := runs.unfolds spread early
  obtain ⟨_, unfolds', all'⟩ := runs'.unfolds spread early
  obtain ⟨same, _⟩ := unfolds.unique unfolds'
  refine ⟨same, fun elastic => ?_⟩
  have contacts : contactsOf last.deliveries = contactsOf last'.deliveries :=
    (all elastic).symm.trans (same.trans (all' elastic))
  obtain ⟨conductor, alone, counts⟩ := runs.startedOnce.contacts runs.made
  obtain ⟨conductor', alone', counts'⟩ := runs'.startedOnce.contacts runs'.made
  refine ⟨contacts, ?_⟩
  simp [alone, alone', counts, counts', contacts]

/-- Whether they are seen once a second or twice a second, in the encounter the one contact begins,
and in the duel it is delivered and counted. -/
theorem contacts_begin_alike_meetings :
    (∃ first last first' last' : Simulation ℝ (Blank ℝ) Conductor,
      (encounter : Scene ℝ).table.Spread ∧ (700 : Instant) < Instant.last ∧
      { (encounter : Scene ℝ) with interval := some 1000 }.Runs (⟨⟩ : Blank ℝ) 700 first last ∧
      { (encounter : Scene ℝ) with interval := some 500 }.Runs (⟨⟩ : Blank ℝ) 700 first' last' ∧
      (encounter : Scene ℝ).table.beginnings last.deliveries =
        (encounter : Scene ℝ).table.beginnings last'.deliveries) ∧
    ∃ first last first' last' : Simulation ℝ (Blank ℝ) Conductor,
      (duel : Scene ℝ).table.Spread ∧ (duel : Scene ℝ).table.response = .elastic ∧
      { (duel : Scene ℝ) with interval := some 1000 }.Runs (⟨⟩ : Blank ℝ) 700 first last ∧
      { (duel : Scene ℝ) with interval := some 500 }.Runs (⟨⟩ : Blank ℝ) 700 first' last' ∧
      told last.deliveries = [(400, .pair 0 1 400)] ∧
      told last'.deliveries = [(400, .pair 0 1 400), (500, .beat 100)] ∧
      (duel : Scene ℝ).table.beginnings last.deliveries =
        (duel : Scene ℝ).table.beginnings last'.deliveries ∧
      contactsOf last.deliveries = contactsOf last'.deliveries ∧
      last.agents.map (·.contacts) = last'.agents.map (·.contacts) := by
  have early : (700 : Instant) < Instant.last := by decide
  constructor
  · obtain ⟨first, last, first', last', runs, runs', _⟩ := exists_runs_encounter
    exact ⟨first, last, first', last', spread_encounter, early, runs, runs',
      (contacts_begin_alike spread_encounter early runs runs').1⟩
  · obtain ⟨first, last, runs, told⟩ := exists_runs sound_duel (by decide) conducts_duel_slow
    obtain ⟨first', last', runs', told'⟩ := exists_runs sound_duel (by decide) conducts_duel_fast
    obtain ⟨begin, count⟩ := contacts_begin_alike spread_duel early runs runs'
    exact ⟨first, last, first', last', spread_duel, rfl, runs, runs', told, told', begin,
      count rfl⟩

/-- Where balls pass through each other, a beat while they do so brings about one more contact: a
settled contact of two balls is not forecast for when they part, but the beat forgets that it is
settled. -/
theorem parting_depends_on_beats :
    ∃ first last first' last' : Simulation ℝ (Blank ℝ) Conductor,
      { (encounter : Scene ℝ) with interval := some 1000 }.Runs (⟨⟩ : Blank ℝ) 700 first last ∧
      { (encounter : Scene ℝ) with interval := some 500 }.Runs (⟨⟩ : Blank ℝ) 700 first' last' ∧
      (encounter : Scene ℝ).table.walls = [] ∧
      ((encounter : Scene ℝ).table.balls.Pairwise fun ball other =>
        ball.radius + other.radius ≤ ball.position.dist other.position) ∧
      contactsOf last.deliveries = [(400, .pair 0 1)] ∧
      contactsOf last'.deliveries = [(400, .pair 0 1), (600, .pair 0 1)] ∧
      last.agents.map (·.contacts) = [1] ∧ last'.agents.map (·.contacts) = [2] := by
  obtain ⟨first, last, first', last', runs, runs', told, told'⟩ := exists_runs_encounter
  obtain ⟨conductor, alone, counts⟩ := runs.startedOnce.contacts runs.made
  obtain ⟨conductor', alone', counts'⟩ := runs'.startedOnce.contacts runs'.made
  have contacts : contactsOf last.deliveries = [(400, .pair 0 1)] := by
    rw [contactsOf, told]
    rfl
  have contacts' : contactsOf last'.deliveries = [(400, .pair 0 1), (600, .pair 0 1)] := by
    rw [contactsOf, told']
    rfl
  refine ⟨first, last, first', last', runs, runs', rfl, List.pairwise_pair.2 clear_duelists,
    contacts, contacts', ?_, ?_⟩
  · simp [alone, counts, contacts]
  · simp [alone', counts', contacts']

end Simulation

end Billiard
