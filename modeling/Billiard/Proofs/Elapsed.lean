import Mathlib.Algebra.GroupWithZero.Nat
import Billiard.Proofs.Deliveries

/-!
No time is lost and none counts twice. Between two contacts or beats that a conductor deals with,
the balls move for exactly as long as lies between the instants of the two, whatever keys come in
between and however late anything is delivered (`elapsed_adds_up`).
-/

namespace Billiard

variable {K C : Type} [Scalar K] [Canvas K C]

/-- The instant of the last of some events, or `since` if there is none. -/
def lastDue (since : Instant) (events : List Event) : Instant :=
  (events.getLast?.map (·.due)).getD since

@[simp] theorem lastDue_nil (since : Instant) : lastDue since [] = since := rfl

@[simp] theorem lastDue_concat (since : Instant) (events : List Event) (event : Event) :
    lastDue since (events ++ [event]) = event.due := by
  simp [lastDue]

/-- Every event comes as long after the one before as it says, the first one after `since`. -/
def Timed (since : Instant) : List Event → Prop :=
  InTurn fun earlier event => event.due = (lastDue since earlier).after event.signal.elapsed

/-- No event was scheduled beyond the last instant, so that it had to come earlier than it says. -/
def Unsaturated (since : Instant) : List Event → Prop :=
  InTurn fun earlier event =>
    (lastDue since earlier).toNat + event.signal.elapsed.toNat ≤ Instant.last.toNat

/-- What deliveries have made of a table is what each of them in turn makes of it. Every contact and
every beat moves every ball by its velocity there for as long as it says; a key moves none. -/
def Displaces (origin : Table K) (earlier : List Event) (event : Event) : Prop :=
  (event.signal.recurs → ∀ (id : BallId) ball, (origin.played earlier).balls[id]? = some ball →
    ∃ moved, (origin.played (earlier ++ [event])).balls[id]? = some moved ∧
      moved.position = (ball.position +
        ball.velocity * (Scalar.ofMillis event.signal.elapsed / 1000.0 : K) : Vec K)) ∧
    (event.signal.recurs = false →
      (origin.played (earlier ++ [event])).balls = (origin.played earlier).balls)

omit [Canvas K C] in
theorem displaces (origin : Table K) (earlier : List Event) (event : Event) :
    Displaces origin earlier event := by
  have played : origin.played (earlier ++ [event]) = event.signal.play (origin.played earlier) := by
    simp [Table.played]
  constructor
  · intro recurs id ball there
    obtain ⟨moved, found, position, _⟩ := Signal.exists_moved recurs there
    exact ⟨moved, played ▸ found, position⟩
  · intro key
    obtain ⟨way, key⟩ := Signal.exists_key key
    rw [played, key]
    cases way <;> rfl

/-- The times between events add up. -/
theorem Timed.sum_elapsed {since : Instant} {events : List Event} (timed : Timed since events)
    (unsaturated : Unsaturated since events) :
    since.toNat + (events.map (·.signal.elapsed.toNat)).sum = (lastDue since events).toNat := by
  induction events using List.reverseRecOn with
  | nil => rfl
  | append_singleton events event ih =>
    obtain ⟨before, here⟩ := inTurn_concat.1 timed
    obtain ⟨within, fits⟩ := inTurn_concat.1 unsaturated
    have sum := ih before within
    rw [List.map_append, List.sum_append, lastDue_concat, here, Instant.toNat_after]
    simp only [List.map_cons, List.map_nil, List.sum_singleton]
    omega

namespace Simulation

variable {simulation after first last : Simulation K C Conductor} {since : Instant}
  {conductor waiting : Conductor} {origin : Table K} {agenda : Agenda}
  {result : Except (Break K) Unit}

/-- The contacts and beats that were delivered. -/
def handled (simulation : Simulation K C Conductor) : List Event :=
  simulation.deliveries.filter (·.signal.recurs)

/-- The table is what the deliveries have made of `origin`, contacts and beats came as long after
each other as they say, and the conductor remembers the instant of the last one. -/
structure Tracks (origin : Table K) (since : Instant) (simulation : Simulation K C Conductor)
    (conductor : Conductor) : Prop where
  played : simulation.Played origin
  timed : Timed since simulation.handled
  settled : conductor.settledAt = lastDue since simulation.handled

namespace Tracks

omit [Canvas K C] in
theorem of_start {interval : Option Millis} (played : after.Played origin)
    (keys : ∀ event ∈ after.deliveries, event.signal.recurs = false)
    (arms : ((Conductor.new interval).restarted since).Arms ⟨0, since⟩ after.stage.table agenda
      (waiting, result) after.stage.agenda) : Tracks origin since after waiting := by
  have nothing : after.handled = [] := List.filter_eq_nil_iff.2 (by simpa using keys)
  refine ⟨played, ?_, ?_⟩
  · rw [nothing]
    exact inTurn_nil _
  · rw [nothing]
    exact arms.kept.2.1

/-- Every passage keeps track. -/
theorem pass (tracks : Tracks origin since simulation conductor)
    (poised : Poised simulation conductor)
    (passes : Poised.Passage simulation conductor after waiting) :
    Tracks origin since after waiting := by
  have played := passes.played tracks.played
  cases passes with
  | rests _ _ deliveries =>
    have same : after.handled = simulation.handled := by rw [handled, deliveries, handled]
    exact ⟨played, same ▸ tracks.timed, same ▸ tracks.settled⟩
  | turns key _ _ deliveries =>
    have same : after.handled = simulation.handled := by
      simp [handled, deliveries, key, Signal.recurs]
    exact ⟨played, same ▸ tracks.timed, same ▸ tracks.settled⟩
  | @reacts event _ _ _ _ _ awaited _ deliveries reacts arms =>
    obtain ⟨_, _, follows, due⟩ := (awaited ▸ poised.waits).exists_follows
    have one : after.handled = simulation.handled ++ [event] := by
      simp [handled, deliveries, Conductor.recurs_of_follows follows]
    refine ⟨played, ?_, ?_⟩
    · rw [one]
      refine inTurn_concat.2 ⟨tracks.timed, ?_⟩
      rw [Signal.elapsed_of_follows follows, ← tracks.settled]
      exact due
    · rw [one, lastDue_concat, arms.kept.2.1]
      exact Conductor.settledAt_of_reaction? reacts

end Tracks

/-- In a run that starts once, every contact or beat is delivered for the instant that lies its
`elapsed` after the one before, or after the start, however many keys came in between; so, unless
that is beyond the last instant, `elapsed` is exactly what lies between the two. The table is what
the deliveries have made of the scene, each contact and beat by moving every ball by its velocity
for its `elapsed`; so, if nothing was scheduled beyond the last instant, the balls have moved in all
from the start up to the last contact or beat. -/
theorem elapsed_adds_up {scene : Scene K} {canvas : C} (made : scene.conduct id canvas = .ok first)
    (once : first.StartedOnce since last) :
    (InTurn (fun earlier event =>
        event.due = (lastDue since earlier).after event.signal.elapsed ∧
          ((lastDue since earlier).toNat + event.signal.elapsed.toNat ≤ Instant.last.toNat →
            (lastDue since earlier).toNat + event.signal.elapsed.toNat = event.due.toNat))
      last.handled) ∧
      last.Played scene.table ∧ InTurn (Displaces scene.table) last.deliveries ∧
      (Unsaturated since last.handled →
        since.toNat + (last.handled.map (·.signal.elapsed.toNat)).sum =
          (lastDue since last.handled).toNat) := by
  obtain ⟨conductor, _, tracks⟩ := once.induct made (motive := Tracks scene.table since)
    (fun played keys _ arms => .of_start played keys arms)
    (fun poised passes tracks => tracks.pass poised passes)
  refine ⟨?_, tracks.played, fun _ _ _ _ => displaces .., tracks.timed.sum_elapsed⟩
  intro earlier event later split
  have due := tracks.timed earlier event later split
  refine ⟨due, ?_⟩
  intro within
  rw [due, Instant.toNat_after]
  omega

/-- The lane with a key pressed at the start, after the key, the contact and the beat: the contact
is late, and still says how long the ball was on its way. -/
theorem elapsed_adds_up_lane :
    ∃ first last : Simulation Float (Blank Float) Conductor, lane.conduct id ⟨⟩ = .ok first ∧
      first.StartedOnce 0 last ∧
      last.handled.map (fun event => (event.due, event.signal.elapsed)) =
        [(800, 800), (1000, 200)] ∧
      (InTurn (fun earlier event =>
          event.due = (lastDue 0 earlier).after event.signal.elapsed ∧
            ((lastDue 0 earlier).toNat + event.signal.elapsed.toNat ≤ Instant.last.toNat →
              (lastDue 0 earlier).toNat + event.signal.elapsed.toNat = event.due.toNat))
        last.handled) ∧
        last.Played lane.table ∧ InTurn (Displaces (lane : Scene Float).table) last.deliveries ∧
        (Unsaturated 0 last.handled →
          (0 : Instant).toNat + (last.handled.map (·.signal.elapsed.toNat)).sum =
            (lastDue 0 last.handled).toNat) := by
  have delivered : (lane.conduct id (⟨⟩ : Blank Float)).toOption.map
      (fun first : Simulation Float (Blank Float) Conductor =>
        (((first.start.2.press .left).2.stepNext.2.advance 900).step.2.stepNext.2).handled.map
          fun event => (event.due, event.signal.elapsed)) =
      some [(800, 800), (1000, 200)] := by
    decide +kernel
  obtain ⟨first, made, events⟩ := Scene.exists_conduct_of_map delivered
  have key : first.start.2.Proceeds (first.start.2.press .left).2.stepNext.2 :=
    .call .stepNext 0 (.call (.press .left) 0 .rest (by simp) rfl) (by simp) rfl
  have late : first.start.2.Proceeds
      ((first.start.2.press .left).2.stepNext.2.advance 900).step.2 :=
    .call .step 0 (.call (.advance 900) 0 key (by simp) rfl) (by simp) rfl
  have once : first.StartedOnce 0
      ((first.start.2.press .left).2.stepNext.2.advance 900).step.2.stepNext.2 :=
    .intro .rest (begins_of_conduct made).1 (.call .stepNext 0 late (by simp) rfl)
  exact ⟨first, _, made, once, events, elapsed_adds_up made once⟩

end Simulation

end Billiard
