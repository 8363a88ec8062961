import Billiard.Proofs.Deliveries

/-!
Beats keep time whatever the balls do. Between the event that is waited for and the next beat lies
what remains (`OnBeat.aimed`); every passage keeps that, so beats come exactly one interval after
another, each before the contacts of its instant, and a run up to a horizon draws as many frames as
intervals fit in (`beats_on_time`). Only where time ends, and what lies beyond falls together in
the last instant, may a contact of that instant come before the beat (`contact_before_last_beat`).
-/

namespace Billiard

/-- A beat. -/
def Signal.isBeat : Signal → Bool
  | .beat _ => true
  | .wall .. | .pair .. | .key _ => false

/-- A contact of a ball with a wall or with another ball. -/
def Signal.isContact : Signal → Bool
  | .wall .. | .pair .. => true
  | .beat _ | .key _ => false

/-- A contact is no beat. -/
theorem Signal.isBeat_of_isContact {signal : Signal} (isContact : signal.isContact) :
    signal.isBeat = false := by
  cases signal with
  | wall _ _ _ | pair _ _ _ => rfl
  | beat _ | key _ => cases isContact

theorem Signal.exists_beat {signal : Signal} (isBeat : signal.isBeat) :
    ∃ elapsed, signal = .beat elapsed := by
  cases signal with
  | beat elapsed => exact ⟨elapsed, rfl⟩
  | wall _ _ _ | pair _ _ _ | key _ => cases isBeat

/-- How many of the events are beats. -/
def beats (events : List Event) : Nat := events.countP (·.signal.isBeat)

/-- When the next beat is due behind some events, if time does not end before. -/
def nextBeat (since : Instant) (interval : Millis) (events : List Event) : Nat :=
  since.toNat + (beats events + 1) * interval.toNat

theorem beats_concat (events : List Event) (event : Event) :
    beats (events ++ [event]) = beats events + if event.signal.isBeat then 1 else 0 := by
  cases beat : event.signal.isBeat <;> simp [beats, beat]

theorem nextBeat_concat (since : Instant) (interval : Millis) (events : List Event)
    (event : Event) : nextBeat since interval (events ++ [event]) =
      nextBeat since interval events + if event.signal.isBeat then interval.toNat else 0 := by
  simp only [nextBeat, beats_concat]
  split
  · rw [Nat.succ_mul]
    omega
  · rfl

theorem nextBeat_le_append (since : Instant) (interval : Millis) (events more : List Event) :
    nextBeat since interval events ≤ nextBeat since interval (events ++ more) := by
  have fewer : beats events ≤ beats (events ++ more) := by simp [beats]
  have product := Nat.mul_le_mul_right interval.toNat (Nat.succ_le_succ fewer)
  exact Nat.add_le_add_left product since.toNat

/-- Among more than `count` beats there is one behind `count` others. -/
theorem exists_split_of_lt_beats {events : List Event} {count : Nat} (less : count < beats events) :
    ∃ earlier event later, events = earlier ++ event :: later ∧ event.signal.isBeat ∧
      beats earlier = count := by
  induction events using List.reverseRecOn with
  | nil => simp [beats] at less
  | append_singleton events last ih =>
    by_cases before : count < beats events
    · obtain ⟨earlier, event, later, rfl, beat, same⟩ := ih before
      exact ⟨earlier, event, later ++ [last], by simp, beat, same⟩
    · rw [beats_concat] at less
      split at less
      · next beat => exact ⟨events, last, [], rfl, beat, by omega⟩
      · omega

/-- A beat comes when it is due, and a contact strictly before the next beat, unless that lies
beyond the last instant. -/
def OnTime (since : Instant) (interval : Millis) (earlier : List Event) (event : Event) : Prop :=
  nextBeat since interval earlier < UInt64.size →
    (event.signal.isBeat → event.due.toNat = nextBeat since interval earlier) ∧
      (event.signal.isContact → event.due.toNat < nextBeat since interval earlier)

/-- Where all is on time, a beat comes after all contacts delivered before it. -/
theorem InTurn.due_lt_of_contact {since : Instant} {interval : Millis} {events : List Event}
    (onTime : InTurn (OnTime since interval) events) {earlier later : List Event} {beat : Event}
    (split : events = earlier ++ beat :: later) (isBeat : beat.signal.isBeat)
    (bounded : nextBeat since interval earlier < UInt64.size) {contact : Event}
    (member : contact ∈ earlier) (isContact : contact.signal.isContact) :
    contact.due < beat.due := by
  obtain ⟨former, between, rfl⟩ := List.append_of_mem member
  have due := (onTime _ _ _ split bounded).1 isBeat
  have mono := nextBeat_le_append since interval former (contact :: between)
  have before := (onTime former contact (between ++ beat :: later) (by simp [split])
    (Nat.lt_of_le_of_lt mono bounded)).2 isContact
  rw [UInt64.lt_iff_toNat_lt]
  omega

namespace Conductor

variable {K : Type} [Scalar K] {conductor ready waiting : Conductor} {now : Instant}
  {signal : Signal} {table after : Table K} {visit : Visit} {agenda rearmed : Agenda}
  {outcome : Outcome K Conductor} {interval : Millis}

/-- If there are beats, then some time is left until the next one, and no more than lies between
two. -/
def Paced (conductor : Conductor) : Prop :=
  ∀ length, conductor.interval = some length →
    0 < conductor.remaining ∧ conductor.remaining ≤ length

theorem paced_of_full (positive : conductor.interval ≠ some 0)
    (full : ∀ length, conductor.interval = some length → conductor.remaining = length) :
    conductor.Paced := by
  intro length beats
  rw [full length beats]
  refine ⟨?_, UInt64.le_refl _⟩
  rw [UInt64.pos_iff_ne_zero]
  rintro rfl
  exact positive beats

theorem paced_new {interval : Option Millis} (fine : interval ≠ some 0) : (new interval).Paced :=
  paced_of_full fine (by rintro length rfl; rfl)

namespace Paced

theorem interval_ne_zero (paced : conductor.Paced) : conductor.interval ≠ some 0 := by
  intro still
  obtain ⟨some, least⟩ := paced 0 still
  exact UInt64.not_lt_zero (UInt64.lt_of_lt_of_le some least)

theorem restarted (paced : conductor.Paced) (now : Instant) : (conductor.restarted now).Paced := by
  refine paced_of_full paced.interval_ne_zero ?_
  intro length beats
  change conductor.interval = some length at beats
  simp [Conductor.restarted, beats]

end Paced

/-- A contact changes nothing about the beats. -/
theorem collided_kept (now : Instant) (contact : Contact) (elapsed : Millis)
    (conductor : Conductor) (table : Table K) :
    let ready := (conductor.collided now contact elapsed table).2
    ready.interval = conductor.interval ∧ ready.remaining = conductor.remaining ∧
      ready.frames = conductor.frames := by
  simp only [collided, settle, atInstant]
  split <;> exact ⟨rfl, rfl, rfl⟩

/-- What a reaction makes of the time until the next beat: a contact leaves it as it is, and a beat
starts it anew. -/
inductive Retimes (conductor ready : Conductor) (signal : Signal) : Prop where
  | contact (phase : conductor.phase = .contact) (isContact : signal.isContact)
      (remaining : ready.remaining = conductor.remaining)
      (frames : ready.frames = conductor.frames)
  | beat (phase : conductor.phase = .beat) (isBeat : signal.isBeat)
      (remaining : ready.remaining = conductor.interval.getD conductor.remaining)
      (frames : ready.frames = conductor.frames + 1)

theorem retimes_of_reaction?
    (reacts : conductor.reaction? now signal table = some (after, ready)) :
    ready.interval = conductor.interval ∧ Retimes conductor ready signal := by
  have met {contact : Contact} {elapsed : Millis} (phase : conductor.phase = .contact)
      (isContact : signal.isContact)
      (collided : some (conductor.collided now contact elapsed table) = some (after, ready)) :
      ready.interval = conductor.interval ∧ Retimes conductor ready signal := by
    obtain rfl := congrArg Prod.snd (Option.some.inj collided)
    obtain ⟨interval, remaining, frames⟩ := conductor.collided_kept now contact elapsed table
    exact ⟨interval, .contact phase isContact remaining frames⟩
  unfold reaction? at reacts
  split at reacts
  · next phase => exact met phase rfl reacts
  · next phase => exact met phase rfl reacts
  · next phase =>
    cases reacts
    exact ⟨rfl, .beat phase rfl rfl rfl⟩
  · cases reacts

namespace Paced

theorem of_reaction? (paced : conductor.Paced)
    (reacts : conductor.reaction? now signal table = some (after, ready)) : ready.Paced := by
  obtain ⟨interval, retimes⟩ := retimes_of_reaction? reacts
  cases retimes with
  | contact _ _ remaining _ =>
    intro length beats
    rw [remaining]
    exact paced length (interval ▸ beats)
  | beat _ _ remaining _ =>
    apply paced_of_full (interval ▸ paced.interval_ne_zero)
    intro length beats
    rw [remaining, ← interval, beats]
    rfl

/-- A contact is waited for only if it comes before the beat. -/
theorem of_arms (paced : ready.Paced) (arms : Arms visit ready table agenda outcome rearmed) :
    outcome.1.Paced := by
  cases arms with
  | stalls _ => exact paced
  | @waits delay _ _ follows =>
    rcases follows_cases follows with ⟨_, _, _, _, ⟨_, rfl⟩ | ⟨_, early, rfl⟩⟩ | ⟨_, _, _, rfl, _⟩
    · exact paced
    · intro length beats
      have within := (paced length beats).2
      change 0 < ready.remaining - delay ∧ ready.remaining - delay ≤ length
      have less := UInt64.toNat_sub_of_le _ _ (UInt64.le_of_lt early)
      rw [UInt64.lt_iff_toNat_lt] at early ⊢
      rw [UInt64.le_iff_toNat_le] at within ⊢
      change 0 < _ ∧ _
      omega
    · exact paced

end Paced

/-- The time from the event that is waited for to the next beat. -/
def slack (conductor : Conductor) : Nat :=
  match conductor.phase with
  | .contact => conductor.remaining.toNat
  | .idle | .beat => 0

theorem frames_of_arms (arms : Arms visit ready table agenda outcome rearmed) :
    outcome.1.frames = ready.frames := by
  cases arms with
  | stalls _ => rfl
  | waits follows =>
    rcases follows_cases follows with ⟨_, _, _, _, ⟨_, rfl⟩ | ⟨_, _, rfl⟩⟩ | ⟨_, _, _, rfl, _⟩ <;>
      rfl

/-- What is reacted to was on time if the next beat was, and from then on the time until the next
beat is what remains. -/
theorem Retimes.aimed {due next : Nat} (retimes : Retimes conductor ready signal)
    (paced : conductor.Paced) (beats : conductor.interval = some interval)
    (aimed : due + conductor.slack = next) :
    ((signal.isBeat → due = next) ∧ (signal.isContact → due < next)) ∧
      due + ready.remaining.toNat = next + if signal.isBeat then interval.toNat else 0 := by
  have left := UInt64.lt_iff_toNat_lt.1 (paced interval beats).1
  change 0 < conductor.remaining.toNat at left
  cases retimes with
  | contact phase isContact remaining _ =>
    have noBeat := Signal.isBeat_of_isContact isContact
    simp only [slack, phase] at aimed
    simp only [noBeat, remaining, Bool.false_eq_true, if_false, false_implies, true_and]
    omega
  | beat phase isBeat remaining _ =>
    have noContact : ¬signal.isContact := by
      intro isContact
      simp [Signal.isBeat_of_isContact isContact] at isBeat
    simp only [slack, phase] at aimed
    rw [remaining, beats, Option.getD_some, if_pos isBeat]
    exact ⟨⟨fun _ => aimed, fun isContact => absurd isContact noContact⟩, by omega⟩

theorem Retimes.frames_eq (retimes : Retimes conductor ready signal) :
    ready.frames = conductor.frames + if signal.isBeat then 1 else 0 := by
  cases retimes with
  | contact _ isContact _ frames =>
    rw [frames, Signal.isBeat_of_isContact isContact]
    rfl
  | beat _ isBeat _ frames => rw [frames, if_pos isBeat]

/-- Where there are beats, arming leaves an event to wait for, and from its instant to the next
beat lies the slack. -/
theorem aimed_of_arms {next : Nat} (arms : Arms visit ready table agenda outcome rearmed)
    (beats : ready.interval = some interval)
    (aimed : visit.now.toNat + ready.remaining.toNat = next) (bounded : next < UInt64.size) :
    ∃ event, rearmed.awaitedBy visit.agent = [event] ∧
      event.due.toNat + outcome.1.slack = next := by
  cases arms with
  | stalls nothing => simp [(follows_eq_none.1 nothing).1] at beats
  | @waits delay signal waiting follows =>
    refine ⟨_, Agenda.awaitedBy_schedule_withdraw (recurs_of_follows follows), ?_⟩
    have most := Instant.toNat_last
    have due : ((agenda.withdraw visit.agent).2.fresh visit.agent (visit.now.after delay)
        signal).due.toNat = min (visit.now.toNat + delay.toNat) Instant.last.toNat :=
      Instant.toNat_after _ _
    rw [due]
    rw [UInt64.size] at bounded
    rcases follows_cases follows with
      ⟨_, _, _, _, ⟨silent, _⟩ | ⟨_, early, rfl⟩⟩ | ⟨_, rfl, _, rfl, _⟩
    · simp [silent] at beats
    · have less := UInt64.toNat_sub_of_le _ _ (UInt64.le_of_lt early)
      rw [UInt64.lt_iff_toNat_lt] at early
      simp only [slack]
      omega
    · simp only [slack]
      omega

end Conductor

namespace Simulation

variable {K C : Type} [Scalar K] [Canvas K C]
  {simulation after first last : Simulation K C Conductor}
  {conductor waiting : Conductor} {since : Instant} {interval : Millis} {agenda : Agenda}
  {result : Except (Break K) Unit}

omit [Canvas K C] in
theorem Poised.Takes.paced {move : Move} (paced : conductor.Paced)
    (takes : Takes move simulation conductor after waiting) :
    waiting.Paced ∧ waiting.interval = conductor.interval := by
  cases takes with
  | keeps => exact ⟨paced, rfl⟩
  | starts _ starts =>
    cases starts with
    | rearms _ arms => exact ⟨(paced.restarted _).of_arms arms, arms.kept.2.2⟩
  | reacts _ _ _ reacts arms =>
    exact ⟨(paced.of_reaction? reacts).of_arms arms,
      arms.kept.2.2.trans (Conductor.retimes_of_reaction? reacts).1⟩

/-- All deliveries were on time, each beat drew a frame, and from the event that is waited for to
the next beat lies the slack. -/
structure OnBeat (since : Instant) (interval : Millis) (simulation : Simulation K C Conductor)
    (conductor : Conductor) : Prop where
  beating : conductor.interval = some interval
  paced : conductor.Paced
  frames : conductor.frames = beats simulation.deliveries
  onTime : InTurn (OnTime since interval) simulation.deliveries
  aimed : nextBeat since interval simulation.deliveries < UInt64.size →
    ∃ event, simulation.stage.agenda.awaitedBy 0 = [event] ∧
      event.due.toNat + conductor.slack = nextBeat since interval simulation.deliveries

namespace OnBeat

omit [Canvas K C] in
theorem of_start (positive : interval ≠ 0)
    (keys : ∀ event ∈ after.deliveries, event.signal.recurs = false)
    (arms : ((Conductor.new (some interval)).restarted since).Arms ⟨0, since⟩ after.stage.table
      agenda (waiting, result) after.stage.agenda) : OnBeat since interval after waiting := by
  have key {event : Event} (member : event ∈ after.deliveries) : ∃ way, event.signal = .key way :=
    Signal.exists_key (keys event member)
  have silent : beats after.deliveries = 0 := by
    rw [beats, List.countP_eq_zero]
    intro event member
    obtain ⟨way, same⟩ := key member
    simp [same, Signal.isBeat]
  have fine : some interval ≠ some 0 := by simpa using positive
  refine ⟨arms.kept.2.2, ((Conductor.paced_new fine).restarted since).of_arms arms, ?_, ?_, ?_⟩
  · rw [silent]
    exact Conductor.frames_of_arms arms
  · intro earlier event later split _
    obtain ⟨way, same⟩ := key (split ▸ List.mem_append_right _ List.mem_cons_self)
    simp [same, Signal.isBeat, Signal.isContact]
  · refine Conductor.aimed_of_arms arms rfl ?_
    simp [nextBeat, silent, Conductor.restarted, Conductor.new]

omit [Canvas K C] in
/-- Every passage keeps the beat. -/
theorem pass (onBeat : OnBeat since interval simulation conductor)
    (passes : Poised.Passage simulation conductor after waiting) :
    OnBeat since interval after waiting := by
  cases passes with
  | rests _ awaited deliveries =>
    obtain ⟨beating, paced, frames, onTime, aimed⟩ := onBeat
    rw [← deliveries] at frames onTime aimed
    rw [← awaited] at aimed
    exact ⟨beating, paced, frames, onTime, aimed⟩
  | turns key _ awaited deliveries =>
    have same : beats after.deliveries = beats simulation.deliveries := by
      rw [deliveries, beats_concat, key]
      rfl
    have next : nextBeat since interval after.deliveries =
        nextBeat since interval simulation.deliveries := by rw [nextBeat, same, nextBeat]
    obtain ⟨beating, paced, frames, onTime, aimed⟩ := onBeat
    rw [← awaited, ← next] at aimed
    refine ⟨beating, paced, frames.trans same.symm, ?_, aimed⟩
    rw [deliveries]
    refine inTurn_concat.2 ⟨onTime, ?_⟩
    intro _
    simp [key, Signal.isBeat, Signal.isContact]
  | @reacts event _ ready _ _ _ awaited _ deliveries reacts arms =>
    obtain ⟨kept, retimes⟩ := Conductor.retimes_of_reaction? reacts
    have beating : ready.interval = some interval := kept.trans onBeat.beating
    have next := nextBeat_concat since interval simulation.deliveries event
    have aimed (bounded : nextBeat since interval simulation.deliveries < UInt64.size) :
        event.due.toNat + conductor.slack = nextBeat since interval simulation.deliveries := by
      obtain ⟨other, same, aimed⟩ := onBeat.aimed bounded
      rw [awaited, List.singleton_inj] at same
      exact same ▸ aimed
    refine ⟨arms.kept.2.2.trans beating, (onBeat.paced.of_reaction? reacts).of_arms arms, ?_, ?_,
      ?_⟩
    · rw [Conductor.frames_of_arms arms, retimes.frames_eq, onBeat.frames, deliveries,
        beats_concat]
    · rw [deliveries]
      refine inTurn_concat.2 ⟨onBeat.onTime, ?_⟩
      intro bounded
      exact (retimes.aimed onBeat.paced onBeat.beating (aimed bounded)).1
    · rw [deliveries, next]
      intro bounded
      have aimed := retimes.aimed onBeat.paced onBeat.beating (aimed (by omega))
      exact Conductor.aimed_of_arms arms beating aimed.2 bounded

omit [Scalar K] [Canvas K C] in
/-- A run up to a horizon draws as many frames as intervals fit in. -/
theorem beats_eq_div (onBeat : OnBeat since interval after conductor) (positive : interval ≠ 0)
    {horizon : Instant} (later : since ≤ horizon)
    (bounded : horizon.toNat + interval.toNat < UInt64.size)
    (passed : ∀ event ∈ after.deliveries, event.due ≤ horizon)
    (beyond : ∀ due, after.stage.agenda.nextDue? = some due → horizon < due) :
    beats after.deliveries = (horizon.toNat - since.toNat) / interval.toNat := by
  have length : 0 < interval.toNat := UInt64.lt_iff_toNat_lt.1 (UInt64.pos_iff_ne_zero.2 positive)
  rw [UInt64.le_iff_toNat_le] at later
  apply Nat.le_antisymm
  · by_contra more
    obtain ⟨earlier, beat, rest, split, isBeat, count⟩ :=
      exists_split_of_lt_beats (Nat.not_le.1 more)
    have whole := Nat.lt_div_mul_add length (a := horizon.toNat - since.toNat)
    have part := Nat.div_mul_le_self (horizon.toNat - since.toNat) interval.toNat
    have next : nextBeat since interval earlier = since.toNat +
        ((horizon.toNat - since.toNat) / interval.toNat * interval.toNat + interval.toNat) := by
      rw [nextBeat, count, Nat.succ_mul]
    have due := (onBeat.onTime earlier beat rest split (by omega)).1 isBeat
    have early := passed beat (split ▸ List.mem_append_right _ List.mem_cons_self)
    rw [UInt64.le_iff_toNat_le] at early
    omega
  · by_contra less
    have next : nextBeat since interval after.deliveries ≤ horizon.toNat := by
      have room := Nat.mul_le_mul_right interval.toNat (Nat.add_one_le_of_lt (Nat.not_le.1 less))
      have part := Nat.div_mul_le_self (horizon.toNat - since.toNat) interval.toNat
      rw [nextBeat]
      omega
    obtain ⟨event, awaited, aimed⟩ := onBeat.aimed (by omega)
    have waits : event ∈ after.stage.agenda.awaitedBy 0 := awaited ▸ List.mem_singleton_self event
    obtain ⟨due, first, before⟩ := Agenda.exists_nextDue?_le (List.mem_of_mem_filter waits)
    have late := beyond due first
    rw [UInt64.lt_iff_toNat_lt] at late
    rw [UInt64.le_iff_toNat_le] at before
    omega

end OnBeat

/-- Wherever calls lead, time is left until the next beat, and no more than lies between two. -/
theorem Poised.exists_paced {scene : Scene K} {canvas : C}
    (made : scene.conduct id canvas = .ok first) (reached : first.Reaches last) :
    ∃ conductor, Poised last conductor ∧ conductor.Paced ∧
      conductor.interval = scene.interval ∧ last.stage.table.Resembles scene.table := by
  obtain ⟨poised, table, fine⟩ := Poised.of_conduct made
  apply reached.induct (motive := fun last => ∃ conductor, Poised last conductor ∧
    conductor.Paced ∧ conductor.interval = scene.interval ∧
      last.stage.table.Resembles scene.table)
  · exact ⟨_, poised, Conductor.paced_new (Scene.fault?_eq_none.1 fine).1, rfl, table ▸ .refl _⟩
  · rintro simulation move ⟨conductor, poised, paced, beating, alike⟩
    obtain ⟨waiting, poised, takes⟩ := poised.take move
    obtain ⟨paced, same⟩ := takes.paced paced
    exact ⟨waiting, poised, paced, same.trans beating, takes.resembles.trans alike⟩

/-- In a run that starts a scene with beats once, each beat comes exactly when it is due, before all
contacts of that instant, unless it is due beyond the last instant; each draws a frame, and between
the event that is waited for and the next beat lies exactly the time that the conductor takes to
remain. A run up to a horizon ends with as many frames drawn as intervals fit in. Wherever calls
lead, some time is left until the next beat, and no more than an interval. -/
theorem beats_on_time {scene : Scene K} {canvas : C} (beating : scene.interval = some interval)
    (made : scene.conduct id canvas = .ok first) (once : first.StartedOnce since last) :
    (∃ conductor, last.agents = [conductor] ∧ conductor.frames = beats last.deliveries ∧
      (nextBeat since interval last.deliveries < UInt64.size →
        ∃ event, last.stage.agenda.awaitedBy 0 = [event] ∧
          event.due.toNat + conductor.slack = nextBeat since interval last.deliveries)) ∧
      InTurn (fun earlier beat => beat.signal.isBeat →
        nextBeat since interval earlier < UInt64.size →
        beat.due.toNat = nextBeat since interval earlier ∧
          ∀ contact ∈ earlier, contact.signal.isContact → contact.due < beat.due)
        last.deliveries ∧
      (∀ (horizon : Instant) rounds deliveries after, since ≤ horizon →
        horizon.toNat + interval.toNat < UInt64.size → last.now ≤ horizon →
        last.runUntil rounds horizon = some (.ok deliveries, after) →
        ∃ conductor, after.agents = [conductor] ∧
          conductor.frames = (horizon.toNat - since.toNat) / interval.toNat) ∧
      ∀ state, first.Reaches state → ∃ conductor, state.agents = [conductor] ∧
        0 < conductor.remaining ∧ conductor.remaining ≤ interval := by
  obtain ⟨_, _, fine⟩ := Poised.of_conduct made
  have positive : interval ≠ 0 := by
    have moving := (Scene.fault?_eq_none.1 fine).1
    simpa [beating] using moving
  have keeps {last : Simulation K C Conductor} (once : first.StartedOnce since last) :
      ∃ conductor, Poised last conductor ∧ OnBeat since interval last conductor :=
    once.induct made (motive := OnBeat since interval)
      (fun _ keys _ arms => .of_start positive keys (beating ▸ arms))
      (fun _ passes onBeat => onBeat.pass passes)
  obtain ⟨conductor, poised, onBeat⟩ := keeps once
  refine ⟨⟨conductor, poised.alone, onBeat.frames, onBeat.aimed⟩, ?_, ?_, ?_⟩
  · intro earlier beat later split isBeat bounded
    refine ⟨(onBeat.onTime earlier beat later split bounded).1 isBeat, ?_⟩
    intro contact member isContact
    exact onBeat.onTime.due_lt_of_contact split isBeat bounded member isContact
  · intro horizon rounds deliveries after later bounded early ended
    have performed : Call.perform rounds (.runUntil horizon) last =
        some (.ok (.count deliveries), after) := by
      rw [Call.perform, ended]
      rfl
    have once := once.call _ rounds (by simp) performed
    obtain ⟨conductor, poised, onBeat⟩ := keeps once
    obtain ⟨beyond, rests⟩ := lt_nextDue?_of_runFrom ended
    have passed := once.due_le_now made
    rw [rests early] at passed
    refine ⟨conductor, poised.alone, onBeat.frames.trans ?_⟩
    exact onBeat.beats_eq_div positive later bounded passed beyond
  · intro state reached
    obtain ⟨conductor, poised, paced, same, _⟩ := Poised.exists_paced made reached
    exact ⟨conductor, poised.alone, paced interval (same.trans beating)⟩

/-- The lane after the contact and the first beat: its beat was on time, and by 3.5 seconds there
are three frames. -/
theorem beats_on_time_lane :
    ∃ first last after : Simulation Float (Blank Float) Conductor,
      lane.conduct id ⟨⟩ = .ok first ∧ first.StartedOnce 0 last ∧
      last.deliveries.map (fun event => (event.due, event.signal.isBeat)) =
        [(800, false), (1000, true)] ∧
      last.runUntil 3 3500 = some (.ok 2, after) ∧
      (∃ conductor, last.agents = [conductor] ∧ conductor.frames = beats last.deliveries ∧
        (nextBeat 0 1000 last.deliveries < UInt64.size →
          ∃ event, last.stage.agenda.awaitedBy 0 = [event] ∧
            event.due.toNat + conductor.slack = nextBeat 0 1000 last.deliveries)) ∧
      InTurn (fun earlier beat => beat.signal.isBeat → nextBeat 0 1000 earlier < UInt64.size →
        beat.due.toNat = nextBeat 0 1000 earlier ∧
          ∀ contact ∈ earlier, contact.signal.isContact → contact.due < beat.due)
        last.deliveries ∧
      (∃ conductor, after.agents = [conductor] ∧ conductor.frames = 3) ∧
      ∃ conductor, after.agents = [conductor] ∧
        0 < conductor.remaining ∧ conductor.remaining ≤ 1000 := by
  have delivered : (lane.conduct id (⟨⟩ : Blank Float)).toOption.map
      (fun first : Simulation Float (Blank Float) Conductor =>
        (first.start.2.stepNext.2.stepNext.2.deliveries.map
            fun event => (event.due, event.signal.isBeat),
          first.start.2.stepNext.2.stepNext.2.now,
          (first.start.2.stepNext.2.stepNext.2.runUntil 3 3500).map (·.1.toOption))) =
      some ([(800, false), (1000, true)], 1000, some (some 2)) := by
    decide +kernel
  obtain ⟨first, made, seen⟩ := Scene.exists_conduct_of_map delivered
  simp only [Prod.mk.injEq] at seen
  obtain ⟨events, clock, ends⟩ := seen
  obtain ⟨⟨result, after⟩, ended, counts⟩ := Option.map_eq_some_iff.1 ends
  obtain rfl : result = .ok 2 := by
    cases result with
    | error cause => cases counts
    | ok count => exact congrArg _ (Option.some.inj counts)
  have twice : first.start.2.Proceeds first.start.2.stepNext.2.stepNext.2 :=
    .call .stepNext 0 (.call .stepNext 0 .rest (by simp) rfl) (by simp) rfl
  have once : first.StartedOnce 0 first.start.2.stepNext.2.stepNext.2 :=
    .intro .rest (begins_of_conduct made).1 twice
  have performed : Call.perform 3 (.runUntil 3500) first.start.2.stepNext.2.stepNext.2 =
      some (.ok (.count 2), after) := by
    rw [Call.perform, ended]
    rfl
  have reached : first.Reaches after := by
    refine .call _ 3 (.call .stepNext 0 (.call .stepNext 0 ?_ rfl) rfl) performed
    exact .call .start 0 .begin rfl
  have early : first.start.2.stepNext.2.stepNext.2.now ≤ 3500 := by
    rw [clock]
    decide
  obtain ⟨drawn, onTime, upTo, paced⟩ := beats_on_time rfl made once
  exact ⟨first, _, after, made, once, events, ended, drawn, onTime,
    upTo 3500 3 2 after (by decide) (by decide) early ended, paced after reached⟩

/-- Where time ends, a contact may come before the beat of its instant: when the lane is started
half a second before, both fall together in the last instant, the contact first. -/
theorem contact_before_last_beat :
    ∃ first last : Simulation Float (Blank Float) Conductor, lane.conduct id ⟨⟩ = .ok first ∧
      first.StartedOnce (Instant.last - 500) last ∧
      ∃ contact beat, last.deliveries = [contact, beat] ∧ contact.signal.isContact ∧
        beat.signal.isBeat ∧ contact.due = beat.due := by
  have delivered : (lane.conduct id (⟨⟩ : Blank Float)).toOption.map
      (fun first : Simulation Float (Blank Float) Conductor =>
        (first.advance (Instant.last - 500)).start.2.stepNext.2.stepNext.2.deliveries.map
          fun event => (event.due, event.signal.isContact, event.signal.isBeat)) =
      some [(Instant.last, true, false), (Instant.last, false, true)] := by
    decide +kernel
  obtain ⟨first, made, events⟩ := Scene.exists_conduct_of_map delivered
  have clock : (first.advance (Instant.last - 500)).now = Instant.last - 500 := by
    change Instant.advance first.now _ = _
    rw [(begins_of_conduct made).1]
    decide
  have idle : first.Proceeds (first.advance (Instant.last - 500)) :=
    .call (.advance _) 0 .rest (by simp) rfl
  have later : (first.advance (Instant.last - 500)).start.2.Proceeds
      (first.advance (Instant.last - 500)).start.2.stepNext.2.stepNext.2 :=
    .call .stepNext 0 (.call .stepNext 0 .rest (by simp) rfl) (by simp) rfl
  refine ⟨first, _, made, .intro idle clock later, ?_⟩
  obtain ⟨contact, others, split, here, there⟩ := List.map_eq_cons_iff.1 events
  obtain ⟨beat, none, rfl, last, nothing⟩ := List.map_eq_cons_iff.1 there
  obtain rfl := List.map_eq_nil_iff.1 nothing
  simp only [Prod.mk.injEq] at here last
  exact ⟨contact, beat, split, here.2.1, last.2.2, here.1.trans last.1.symm⟩

end Simulation

end Billiard
