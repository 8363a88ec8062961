import Billiard.Proofs.Beats
import Billiard.Proofs.Elapsed
import Billiard.Proofs.History
import Billiard.Proofs.Progress

/-!
No contact is dealt with twice in one instant for nothing. What was dealt with at the present
instant is settled, unless another contact has turned a ball of it since (`Recalls.settles`); beats
do not come in between, for a beat never shares its instant with a contact before it. So a contact
that comes once more at one instant has been reopened by another one
(`contacts_repeat_if_reopened`).
-/

namespace Billiard

variable {K C : Type} [Scalar K]

/-- Among `later` events, which come behind `earlier` ones, another contact of the instant `now`
gives a ball that takes part in `contact` a new velocity. -/
def Reopened (origin : Table K) (contact : Contact) (now : Instant)
    (earlier later : List Event) : Prop :=
  ∃ former turner latter other ball, later = former ++ turner :: latter ∧ turner.due = now ∧
    turner.signal.contact? = some other ∧ other ≠ contact ∧ contact.involves ball ∧
    Conductor.deflected (origin.played (earlier ++ former))
      (origin.played (earlier ++ former ++ [turner])) ball

/-- What comes later does not undo it. -/
theorem Reopened.concat {origin : Table K} {contact : Contact} {now : Instant}
    {earlier later : List Event} (reopened : Reopened origin contact now earlier later)
    (event : Event) : Reopened origin contact now earlier (later ++ [event]) := by
  obtain ⟨former, turner, latter, other, ball, split, turns⟩ := reopened
  exact ⟨former, turner, latter ++ [event], other, ball, by simp [split], turns⟩

/-- If an event is a contact before the last instant, then since every delivery of that contact at
that instant another one has reopened it. -/
def RepeatsIfReopened (origin : Table K) (earlier : List Event) (again : Event) : Prop :=
  ∀ former one between contact, earlier = former ++ one :: between →
    one.signal.contact? = some contact → again.signal.contact? = some contact →
    one.due = again.due → again.due < Instant.last →
    Reopened origin contact again.due (former ++ [one]) between

theorem Signal.recurs_of_contact? {signal : Signal} {contact : Contact}
    (announces : signal.contact? = some contact) : signal.recurs := by
  cases signal with
  | wall _ _ _ | pair _ _ _ | beat _ => rfl
  | key _ => cases announces

omit [Scalar K] in
theorem Signal.contact?_ofContact {table : Table K} {contact : Contact} {delay : Millis}
    (there : contact.At table) : (ofContact contact delay).contact? = some contact := by
  cases contact with
  | wall ball side => rfl
  | pair a b => simp [ofContact, contact?, Contact.between, Nat.le_of_lt there.1]

/-- The instants of events never go back. -/
theorem Timed.due_le_lastDue {since : Instant} {events : List Event}
    (timed : Timed since events) : ∀ event ∈ events, event.due ≤ lastDue since events := by
  induction events using List.reverseRecOn with
  | nil => exact fun event member => absurd member List.not_mem_nil
  | append_singleton events last ih =>
    obtain ⟨before, here⟩ := inTurn_concat.1 timed
    rw [lastDue_concat, List.forall_mem_append, List.forall_mem_singleton]
    refine ⟨?_, UInt64.le_refl _⟩
    intro event member
    refine UInt64.le_trans (ih before event member) ?_
    rw [here]
    exact Instant.le_after _ _

namespace Conductor

variable {ready waiting next : Conductor} {table after : Table K} {delay : Millis}
  {signal : Signal} {contact : Contact} {now : Instant}

theorem velocity?_drift (elapsed : Millis) (table : Table K) (ball : BallId) :
    (table.drift elapsed).velocity? ball = table.velocity? ball := by
  simp [Table.velocity?, Table.drift, Ball.drift, Function.comp_def]

/-- To drift is not to turn. -/
theorem deflected_drift (elapsed : Millis) (before after : Table K) (ball : BallId) :
    deflected (before.drift elapsed) after ball = deflected before after ball := by
  rw [deflected, velocity?_drift, deflected]

/-- What was settled stays so when a contact is settled, unless that turns a ball of it. -/
theorem settled_or_turned {conductor : Conductor} {other : Contact} (before : Table K)
    (held : other ∈ conductor.settled) :
    other ∈ (conductor.settle before after contact).settled ∨
      contact ≠ other ∧ ∃ ball, other.involves ball ∧ deflected before after ball := by
  by_cases same : other = contact
  · exact .inl (same ▸ List.mem_cons_self)
  by_cases turned : (contact.balls.filter (deflected before after)).any other.involves
  · obtain ⟨ball, changed, part⟩ := List.any_eq_true.1 turned
    exact .inr ⟨Ne.symm same, ball, part, (List.mem_filter.1 changed).2⟩
  · refine .inl (List.mem_cons_of_mem _ (List.mem_filter.2 ⟨held, ?_⟩))
    simpa using turned

/-- A contact that has been waited for was not settled, and from then on it is. -/
theorem settles_of_reaction? (follows : ready.follows table = some (delay, signal, waiting))
    (reacts : waiting.reaction? now signal table = some (after, next))
    (announces : signal.contact? = some contact) :
    contact ∉ waiting.settled ∧ contact ∈ next.settled ∧
      (waiting.settledAt = now → ∀ other ∈ waiting.settled, other ∈ next.settled ∨
        contact ≠ other ∧ ∃ ball, other.involves ball ∧ deflected table after ball) := by
  rcases reaction_of_follows follows reacts with ⟨found, soonest, rfl, same⟩ | ⟨rfl, _⟩
  · obtain ⟨member, isOpen⟩ := Table.nextContact?_mem soonest
    obtain rfl : found = contact := by
      rw [Signal.contact?_ofContact (Table.at_of_mem_forecasts member)] at announces
      exact Option.some.inj announces
    simp only [collided, Prod.mk.injEq] at same
    obtain ⟨rfl, rfl⟩ := same
    refine ⟨isOpen, List.mem_cons_self, ?_⟩
    intro present other held
    have kept : other ∈ (waiting.atInstant now).settled := by
      rw [atInstant, if_pos present.symm]
      exact held
    simpa only [deflected_drift] using settled_or_turned (table.drift delay) kept
  · cases announces

/-- At one instant before the last, only contacts come after anything: a beat takes time. -/
theorem Paced.contact_of_atOnce (paced : waiting.Paced)
    (follows : ready.follows table = some (delay, signal, waiting))
    (reacts : waiting.reaction? now signal table = some (after, next))
    (early : waiting.settledAt < Instant.last)
    (atOnce : waiting.settledAt.after delay = waiting.settledAt) :
    ∃ contact, signal.contact? = some contact := by
  rcases reaction_of_follows follows reacts with ⟨contact, soonest, rfl, _⟩ | ⟨_, rfl, beats, _⟩
  · have there := Table.at_of_mem_forecasts (Table.nextContact?_mem soonest).1
    exact ⟨contact, Signal.contact?_ofContact there⟩
  · obtain ⟨length, beats⟩ := Option.ne_none_iff_exists'.1 beats
    have left := (paced length beats).1
    rw [Instant.delay_eq_zero early atOnce] at left
    exact absurd left (UInt64.lt_irrefl 0)

end Conductor

namespace Simulation

variable [Canvas K C] {simulation after first last here : Simulation K C Conductor}
  {since : Instant} {conductor waiting : Conductor} {origin : Table K} {agenda : Agenda}
  {moves : List Move} {result : Except (Break K) Unit}

/-- The contacts of the instant of the last contact or beat are settled, but for those that have
been reopened since, and no contact has come again that was not. -/
structure Recalls (origin : Table K) (since : Instant) (simulation : Simulation K C Conductor)
    (conductor : Conductor) : Prop where
  tracks : Tracks origin since simulation conductor
  paced : conductor.Paced
  settles : conductor.settledAt < Instant.last → ∀ earlier event later contact,
    simulation.deliveries = earlier ++ event :: later → event.signal.contact? = some contact →
    event.due = conductor.settledAt → contact ∈ conductor.settled ∨
      Reopened origin contact event.due (earlier ++ [event]) later
  repeats : InTurn (RepeatsIfReopened origin) simulation.deliveries

namespace Recalls

omit [Canvas K C] in
theorem of_start {interval : Option Millis} (fine : interval ≠ some 0)
    (played : after.Played origin)
    (keys : ∀ event ∈ after.deliveries, event.signal.recurs = false)
    (arms : ((Conductor.new interval).restarted since).Arms ⟨0, since⟩ after.stage.table agenda
      (waiting, result) after.stage.agenda) : Recalls origin since after waiting := by
  have silent {event : Event} {contact : Contact} (member : event ∈ after.deliveries)
      (announces : event.signal.contact? = some contact) : False := by
    have once := keys event member
    simp [Signal.recurs_of_contact? announces] at once
  refine ⟨.of_start played keys arms, ((Conductor.paced_new fine).restarted since).of_arms arms,
    ?_, ?_⟩
  · intro _ earlier event later contact split announces
    exact (silent (split ▸ List.mem_append_right _ List.mem_cons_self) announces).elim
  · intro earlier event later split _ _ _ contact _ _ announces
    exact (silent (split ▸ List.mem_append_right _ List.mem_cons_self) announces).elim

/-- Every passage keeps in mind what was settled. -/
theorem pass (recalls : Recalls origin since simulation conductor)
    (poised : Poised simulation conductor)
    (passes : Poised.Passage simulation conductor after waiting) :
    Recalls origin since after waiting := by
  have tracks := recalls.tracks.pass poised passes
  cases passes with
  | rests _ _ deliveries =>
    exact ⟨tracks, recalls.paced, deliveries ▸ recalls.settles, deliveries ▸ recalls.repeats⟩
  | @turns event _ _ key _ _ deliveries =>
    refine ⟨tracks, recalls.paced, ?_, ?_⟩
    · intro early earlier other later contact split announces due
      rw [deliveries] at split
      rcases eq_or_split_of_concat split with ⟨_, rfl, _⟩ | ⟨more, rfl, within⟩
      · simp [key, Signal.contact?] at announces
      · exact (recalls.settles early _ _ _ _ within announces due).imp_right (·.concat event)
    · rw [deliveries]
      refine inTurn_concat.2 ⟨recalls.repeats, ?_⟩
      intro _ _ _ contact _ _ announces
      simp [key, Signal.contact?] at announces
  | @reacts event _ ready _ _ _ awaited _ deliveries reacts arms =>
    obtain ⟨before, delay, follows, due⟩ : ∃ (before : Conductor) (delay : Millis),
        before.follows simulation.stage.table = some (delay, event.signal, conductor) ∧
          event.due = conductor.settledAt.after delay := (awaited ▸ poised.waits).exists_follows
    have clock : waiting.settledAt = event.due :=
      arms.kept.2.1.trans (Conductor.settledAt_of_reaction? reacts)
    have present {other : Event} {contact : Contact} (member : other ∈ simulation.deliveries)
        (announces : other.signal.contact? = some contact) (same : other.due = event.due) :
        conductor.settledAt = event.due := by
      have held : other ∈ simulation.handled :=
        List.mem_filter.2 ⟨member, Signal.recurs_of_contact? announces⟩
      have past := recalls.tracks.timed.due_le_lastDue other held
      rw [← recalls.tracks.settled, same] at past
      exact UInt64.le_antisymm (due ▸ Instant.le_after _ _) past
    refine ⟨tracks, (recalls.paced.of_reaction? reacts).of_arms arms, ?_, ?_⟩
    · intro early earlier other later contact split announces same
      rw [deliveries] at split
      rw [clock] at early same
      rw [arms.kept.1]
      rcases eq_or_split_of_concat split with ⟨_, rfl, _⟩ | ⟨more, rfl, within⟩
      · exact .inl (Conductor.settles_of_reaction? follows reacts announces).2.1
      · have atOnce := present (within ▸ List.mem_append_right _ List.mem_cons_self) announces same
        rcases recalls.settles (atOnce ▸ early) _ _ _ _ within announces (same.trans atOnce.symm)
          with held | reopened
        · obtain ⟨turning, turns⟩ := recalls.paced.contact_of_atOnce follows reacts
            (atOnce ▸ early) (due.symm.trans atOnce.symm)
          obtain ⟨_, _, kept⟩ := Conductor.settles_of_reaction? follows reacts turns
          rcases kept atOnce contact held with held | ⟨different, ball, part, turned⟩
          · exact .inl held
          · refine .inr ⟨more, event, [], turning, ball, rfl, same.symm, turns, different, part, ?_⟩
            have before : simulation.stage.table = origin.played (earlier ++ [other] ++ more) := by
              rw [List.append_assoc, List.singleton_append, ← within]
              exact recalls.tracks.played
            have behind : after.stage.table =
                origin.played (earlier ++ [other] ++ more ++ [event]) := by
              rw [List.append_assoc _ [other], List.singleton_append, ← within, ← deliveries]
              exact tracks.played
            rwa [before, behind] at turned
        · exact .inr (reopened.concat event)
    · rw [deliveries]
      refine inTurn_concat.2 ⟨recalls.repeats, ?_⟩
      intro former one between contact split announces again same early
      have atOnce := present (split ▸ List.mem_append_right _ List.mem_cons_self) announces same
      have isOpen := (Conductor.settles_of_reaction? follows reacts again).1
      rw [← same]
      exact (recalls.settles (atOnce ▸ early) _ _ _ _ split announces
        (same.trans atOnce.symm)).resolve_left isOpen

end Recalls

/-- Moves other than starts are calls. -/
theorem Proceeds.of_moves (noStart : .start ∉ moves) : first.Proceeds (first.follow moves) := by
  induction moves using List.reverseRecOn with
  | nil => exact .rest
  | append_singleton moves move ih =>
    rw [List.mem_append, List.mem_singleton, not_or] at noStart
    rw [follow_concat]
    have before := ih noStart.1
    cases move with
    | start => exact absurd rfl noStart.2
    | step => exact .call .step 0 before (by simp) rfl
    | advance t => exact .call (.advance t) 0 before (by simp) rfl
    | press way => exact .call (.press way) 0 before (by simp) rfl

/-- Where moves lead with one start among them, a run leads that starts once. -/
theorem StartedOnce.of_moves (once : moves.count .start = 1) :
    ∃ since, first.StartedOnce since (first.follow moves) := by
  obtain ⟨before, after, rfl⟩ : ∃ before after, moves = before ++ .start :: after :=
    List.append_of_mem (List.count_pos_iff.1 (by omega))
  rw [List.count_append, List.count_cons_self] at once
  have idle : .start ∉ before := List.count_eq_zero.1 (by omega)
  have others : .start ∉ after := List.count_eq_zero.1 (by omega)
  refine ⟨(first.follow before).now, ?_⟩
  rw [follow_append]
  exact .intro (.of_moves idle) rfl (.of_moves others)

/-- No contact is dealt with twice in one instant for nothing. Wherever a run leads that starts a
checked scene no more than once, between calls or in the middle of one, two deliveries of the same
contact at one instant before the last have another contact of that instant between them, which has
given a ball of the first one a new velocity. The tables are those of the run: what the deliveries
up to there have made of the scene. -/
theorem contacts_repeat_if_reopened {scene : Scene K} {canvas : C}
    (made : scene.conduct id canvas = .ok first) (visits : first.Visits moves here)
    (once : moves.count .start ≤ 1) :
    here.stage.table = scene.table.played here.deliveries ∧
      ∀ former one between again later contact,
        here.deliveries = former ++ one :: between ++ again :: later →
        one.signal.contact? = some contact → again.signal.contact? = some contact →
        one.due = again.due → again.due < Instant.last →
        Reopened scene.table contact again.due (former ++ [one]) between := by
  have repeats : here.Played scene.table ∧
      InTurn (RepeatsIfReopened scene.table) here.deliveries := by
    rw [← visits.follow]
    by_cases started : moves.count .start = 1
    · obtain ⟨since, once⟩ : ∃ since, first.StartedOnce since (first.follow moves) :=
        StartedOnce.of_moves started
      have moving := (Scene.fault?_eq_none.1 (Poised.of_conduct made).2.2).1
      obtain ⟨_, _, recalls⟩ := once.induct made (motive := Recalls scene.table since)
        (fun played keys _ arms => .of_start moving played keys arms)
        (fun poised passes recalls => recalls.pass poised passes)
      exact ⟨recalls.tracks.played, recalls.repeats⟩
    · have idle : .start ∉ moves := List.count_eq_zero.1 (by omega)
      have proceeds : first.Proceeds (first.follow moves) := .of_moves idle
      obtain ⟨_, _, keys, played⟩ := proceeds.idle made
      refine ⟨played, ?_⟩
      intro earlier event later split _ _ _ contact _ _ announces
      have once := keys event (split ▸ List.mem_append_right _ List.mem_cons_self)
      simp [Signal.recurs_of_contact? announces] at once
  refine ⟨repeats.1, ?_⟩
  intro former one between again later contact split
  exact repeats.2 _ again later split former one between contact rfl

/-- In the corridor, the ball is at the first wall twice in the first instant, and the other wall
has turned it in between. -/
theorem contacts_repeat_if_reopened_corridor :
    ∃ (first here : Simulation Float (Blank Float) Conductor) (one turner again : Event),
      (corridor 4000.0).conduct id ⟨⟩ = .ok first ∧
      first.Visits [.start, .step, .step, .step] here ∧
      here.deliveries = [one, turner, again] ∧
      one.signal.contact? = some (.wall 0 0) ∧ again.signal.contact? = some (.wall 0 0) ∧
      one.due = again.due ∧ again.due < Instant.last ∧
      here.stage.table = (corridor 4000.0).table.played here.deliveries ∧
      Reopened (corridor (4000.0 : Float)).table (.wall 0 0) again.due [one] [turner] := by
  have delivered : ((corridor 4000.0).conduct id (⟨⟩ : Blank Float)).toOption.map
      (fun first : Simulation Float (Blank Float) Conductor =>
        (first.follow [.start, .step, .step, .step]).deliveries.map
          fun event => (event.due, event.signal.contact?)) =
      some [(0, some (.wall 0 0)), (0, some (.wall 0 1)), (0, some (.wall 0 0))] := by
    decide +kernel
  obtain ⟨first, made, events⟩ := Scene.exists_conduct_of_map delivered
  obtain ⟨one, others, split, here, there⟩ := List.map_eq_cons_iff.1 events
  obtain ⟨turner, more, rfl, _, there⟩ := List.map_eq_cons_iff.1 there
  obtain ⟨again, none, rfl, last, nothing⟩ := List.map_eq_cons_iff.1 there
  obtain rfl := List.map_eq_nil_iff.1 nothing
  simp only [Prod.mk.injEq] at here last
  have started : first.Leads [.start] first.start.2 := .call .start 0 .begin rfl
  have visits : first.Visits [.start, .step, .step, .step]
      (first.follow [.start, .step, .step, .step]) :=
    .within .step 0 (.call .step 0 (.call .step 0 started rfl) rfl)
      (List.prefix_refl [Move.step])
  have atOnce : one.due = again.due := here.1.trans last.1.symm
  have early : again.due < Instant.last := by
    rw [last.1]
    decide
  obtain ⟨played, repeats⟩ := contacts_repeat_if_reopened made visits (by decide)
  have reopened := repeats [] one [turner] again [] (.wall 0 0) split here.2 last.2 atOnce early
  exact ⟨first, _, one, turner, again, made, visits, split, here.2, last.2, atOnce, early, played,
    reopened⟩

end Simulation

end Billiard
