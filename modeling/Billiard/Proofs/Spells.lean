import Billiard.Proofs.Separation

/-!
When contacts begin and end. A ball is within reach of a wall's line, and two balls are within reach
of each other, for one spell of time, which may lie in the past; drifting brings its beginning and
its end nearer alike (`Contact.spell?_drift`). A spell that covers the time within reach is forecast
for the first time at which the edge is reached (`Spell.Covers.forecast_iff`). Where speeds are
measured, a contact is forecast for when it begins if that lies ahead, and otherwise only while it
lasts (`Table.mem_forecasts_iff_of_onset`, `Table.inside_of_forecast`).
-/

namespace Billiard

open Prediction Scalar

/-- A time from its beginning to its end, both in milliseconds from now. -/
structure Spell where
  begins : ℝ
  ends : ℝ

namespace Spell

variable {spell : Spell}

/-- The same spell some milliseconds later. -/
noncomputable def after (elapsed : Millis) (spell : Spell) : Spell :=
  ⟨spell.begins - elapsed.toNat, spell.ends - elapsed.toNat⟩

/-- When the spell is noticed. -/
noncomputable def notice? (spell : Spell) : Option ℝ := firstContact? spell.begins spell.ends

/-- A spell that lies ahead and lasts is noticed when it begins. -/
theorem notice?_of_ahead (ahead : 0 ≤ spell.begins)
    (lasting : instantaneous < spell.ends - spell.begins) : spell.notice? = some spell.begins :=
  firstContact?_of_ahead ahead lasting

/-- A spell that is over is not noticed. -/
theorem notice?_of_over (le : spell.begins ≤ spell.ends) (gone : spell.ends ≤ 0) :
    spell.notice? = none :=
  firstContact?_of_over le gone

/-- A spell that has not just begun is noticed when it ends, if that does not count as now. -/
theorem notice?_of_begun (begun : spell.begins ≤ -instantaneous)
    (lasts : instantaneous < spell.ends) : spell.notice? = some spell.ends := by
  change _ ≤ -1e-6 at begun
  change 1e-6 < _ at lasts
  have short : (0 : ℝ) < 1e-6 := by norm_num
  rw [notice?, firstContact?_of_le (by linarith), if_neg (by linarith),
    if_neg fun both => absurd both.1 (not_lt.2 begun), if_pos lasts]

variable {distance : ℝ → ℝ} {reach t : ℝ} {delay elapsed : Millis}

/-- Between two times at which `distance` is `reach`, more than an instant passes. -/
def Lasts (distance : ℝ → ℝ) (reach : ℝ) : Prop :=
  ∃ t u, distance t = reach ∧ distance u = reach ∧ instantaneous < u - t

/-- The spell is the time for which `distance` is below `reach`; when it begins and when it ends
they are equal. -/
structure Covers (spell : Spell) (distance : ℝ → ℝ) (reach : ℝ) : Prop where
  ordered : spell.begins ≤ spell.ends
  touches : ∀ t, distance t = reach ↔ t = spell.begins ∨ t = spell.ends
  clear : ∀ t, reach ≤ distance t ↔ t ≤ spell.begins ∨ spell.ends ≤ t

namespace Covers

/-- What is out of reach now comes within reach when the spell begins, and that is noticed, or never
again, and nothing is. -/
theorem first (covers : spell.Covers distance reach) (far : reach < distance 0) :
    IsLeast {t | 0 < t ∧ distance t = reach} spell.begins ∧ spell.notice? = some spell.begins ∨
      {t | 0 < t ∧ distance t = reach} = ∅ ∧ spell.notice? = none := by
  obtain ⟨ordered, touches, clear⟩ := covers
  have apart : ¬(0 = spell.begins ∨ 0 = spell.ends) := mt (touches 0).2 far.ne'
  rcases (clear 0).1 far.le with ahead | ended
  · left
    have later : 0 < spell.begins := ahead.lt_of_ne fun now => apart (.inl now)
    refine ⟨⟨⟨later, (touches _).2 (.inl rfl)⟩, ?_⟩, ?_⟩
    · rintro t ⟨_, touching⟩
      rcases (touches t).1 touching with rfl | rfl
      · exact le_refl _
      · exact ordered
    · rw [notice?, firstContact?_of_le ordered, if_pos later]
  · right
    refine ⟨Set.eq_empty_of_forall_notMem ?_, notice?_of_over ordered ended⟩
    rintro t ⟨later, touching⟩
    rcases (touches t).1 touching with rfl | rfl <;> linarith

/-- What is out of reach now is forecast for the whole milliseconds of the first time at which it
comes within reach, if they are counted. -/
theorem forecast_iff (covers : spell.Covers distance reach) (far : reach < distance 0) :
    spell.notice?.bind wholeMillis? = some delay ↔
      ∃ t, IsLeast {t | 0 < t ∧ distance t = reach} t ∧ ⌊t⌋₊ < 2 ^ 64 ∧ delay.toNat = ⌊t⌋₊ := by
  rcases covers.first far with ⟨least, noticed⟩ | ⟨never, none⟩
  · rw [noticed, Option.bind_some, wholeMillis?_eq_some_iff least.1.1.le]
    constructor
    · exact fun counted => ⟨_, least, counted⟩
    · rintro ⟨t, least', counted⟩
      exact least.unique least' ▸ counted
  · rw [none, never]
    constructor
    · intro found
      cases found
    · rintro ⟨t, least, _⟩
      simp [IsLeast] at least

theorem exists_least (covers : spell.Covers distance reach) (far : reach < distance 0)
    (some : {t | 0 < t ∧ distance t = reach}.Nonempty) :
    ∃ t, IsLeast {t | 0 < t ∧ distance t = reach} t := by
  rcases covers.first far with ⟨least, _⟩ | ⟨never, _⟩
  · exact ⟨_, least⟩
  · simp [never] at some

/-- What is out of reach now stays so until then. -/
theorem clear_until (covers : spell.Covers distance reach) (far : reach < distance 0)
    (forecast : spell.notice?.bind wholeMillis? = some delay) (early : t ≤ delay.toNat) :
    reach ≤ distance t := by
  rcases covers.first far with ⟨_, noticed⟩ | ⟨_, none⟩
  · rw [noticed] at forecast
    have floored := toNat_of_wholeMillis? forecast
    have within : t ≤ spell.begins := early.trans (floored.2 ▸ Nat.floor_le floored.1)
    exact (covers.clear t).2 (.inl within)
  · simp [none] at forecast

/-- What comes within reach now is forecast for now, if it is at the edge again later than counts as
now. -/
theorem forecast_now (covers : spell.Covers distance reach) (begins : spell.begins = 0)
    (again : ∃ t, instantaneous < t ∧ distance t = reach) :
    spell.notice?.bind wholeMillis? = some 0 := by
  obtain ⟨t, later, edge⟩ := again
  have lasting : instantaneous < spell.ends - spell.begins := by
    rcases (covers.touches t).1 edge with same | same
    · rw [same, begins] at later
      exact absurd later (not_lt.2 instantaneous_pos.le)
    · rwa [begins, sub_zero, ← same]
  rw [notice?_of_ahead begins.ge lasting, begins]
  exact wholeMillis?_of_lt_one (le_refl 0) one_pos

/-- What is clear now and noticed is noticed when the spell begins, if that lasts for longer than an
instant. -/
theorem eq_begins_of_notice? (covers : spell.Covers distance reach) (clear : reach ≤ distance 0)
    (lasts : Lasts distance reach) (noticed : spell.notice? = some t) :
    t = spell.begins ∧ 0 ≤ spell.begins ∧ instantaneous < spell.ends - spell.begins := by
  obtain ⟨ordered, touches, outside⟩ := covers
  have lasting : instantaneous < spell.ends - spell.begins := by
    obtain ⟨s, u, first, last, long⟩ := lasts
    have short : (0 : ℝ) < instantaneous := instantaneous_pos
    rcases (touches s).1 first with rfl | rfl <;> rcases (touches u).1 last with rfl | rfl <;>
      linarith
  rcases (outside 0).1 clear with ahead | ended
  · rw [notice?_of_ahead ahead lasting] at noticed
    exact ⟨(Option.some.inj noticed).symm, ahead, lasting⟩
  · rw [notice?_of_over ordered ended] at noticed
    cases noticed

/-- On the way there it is still clear, and is noticed by as much sooner. -/
theorem notice?_after (covers : spell.Covers distance reach) (clear : reach ≤ distance 0)
    (lasts : Lasts distance reach) (noticed : spell.notice? = some t)
    (passed : (elapsed.toNat : ℝ) ≤ t) :
    reach ≤ distance elapsed.toNat ∧
      (spell.after elapsed).notice? = some (t - elapsed.toNat) := by
  obtain ⟨rfl, _, lasting⟩ := covers.eq_begins_of_notice? clear lasts noticed
  refine ⟨(covers.clear _).2 (.inl passed), notice?_of_ahead (sub_nonneg.2 passed) ?_⟩
  simpa [after] using lasting

end Covers

theorem Lasts.later (lasts : Lasts distance reach) (s : ℝ) :
    Lasts (fun t => distance (s + t)) reach := by
  obtain ⟨t, u, first, last, long⟩ := lasts
  refine ⟨t - s, u - s, ?_, ?_, by linarith⟩
  · exact (congrArg distance (add_sub_cancel s t)).trans first
  · exact (congrArg distance (add_sub_cancel s u)).trans last

end Spell

namespace Ball

variable {ball first second : Ball ℝ} {wall : Segment ℝ}

/-- The time for which the ball is within reach of the wall's line, if it does not move along it. -/
noncomputable def lineSpell? (ball : Ball ℝ) (wall : Segment ℝ) : Option Spell :=
  if ball.rate wall = 0 then none
  else some
    ⟨-(1000.0 * ball.offset wall / ball.rate wall) - 1000.0 * ball.berth wall / |ball.rate wall|,
      -(1000.0 * ball.offset wall / ball.rate wall) + 1000.0 * ball.berth wall / |ball.rate wall|⟩

/-- The time for which two balls are within reach of each other, if they ever are for longer than
they need to graze each other. -/
noncomputable def ballSpell? (first second : Ball ℝ) : Option Spell :=
  if 0 < first.discriminant second then
    some ⟨(first.touches second).1, (first.touches second).2⟩
  else none

theorem berth_drift (elapsed : Millis) (ball : Ball ℝ) (wall : Segment ℝ) :
    (ball.drift elapsed).berth wall = ball.berth wall := rfl

theorem pace_drift (elapsed : Millis) (first second : Ball ℝ) :
    (first.drift elapsed).pace (second.drift elapsed) = first.pace second := rfl

theorem lineSpell?_eq (ball : Ball ℝ) (wall : Segment ℝ) : ball.lineSpell? wall =
    if ball.rate wall = 0 then none
    else some
      ⟨-(1000 * ball.offset wall / ball.rate wall) - 1000 * ball.berth wall / |ball.rate wall|,
        -(1000 * ball.offset wall / ball.rate wall) +
          1000 * ball.berth wall / |ball.rate wall|⟩ := by
  have thousand : (1000.0 : ℝ) = 1000 := by norm_num
  rw [lineSpell?, thousand]

theorem lineSpell?_drift (elapsed : Millis) (ball : Ball ℝ) (wall : Segment ℝ) :
    (ball.drift elapsed).lineSpell? wall = (ball.lineSpell? wall).map (.after elapsed) := by
  rw [lineSpell?_eq, lineSpell?_eq, rate_drift, berth_drift, offset_drift]
  by_cases still : ball.rate wall = 0
  · rw [if_pos still, if_pos still]
    rfl
  · have middle : -(1000 * (ball.offset wall + ball.rate wall * (elapsed.toNat / 1000)) /
        ball.rate wall) = -(1000 * ball.offset wall / ball.rate wall) - elapsed.toNat := by
      field_simp
      ring
    rw [if_neg still, if_neg still, middle, sub_right_comm, sub_add_eq_add_sub]
    rfl

theorem discriminant_drift (elapsed : Millis) (first second : Ball ℝ) :
    (first.drift elapsed).discriminant (second.drift elapsed) = first.discriminant second := by
  rw [discriminant, parting_drift, clearance_drift, pace_drift, discriminant]
  ring

/-- Balls that move alike do not come within reach of each other. -/
theorem pace_pos_of_discriminant (touch : 0 < first.discriminant second) :
    0 < first.pace second := by
  refine (pace_nonneg first second).lt_of_ne fun still => ?_
  rw [discriminant, parting_eq_zero_of_pace still.symm, ← still] at touch
  linarith

theorem touches_drift (moving : first.pace second ≠ 0) (elapsed : Millis) :
    (first.drift elapsed).touches (second.drift elapsed) =
      ((first.touches second).1 - elapsed.toNat, (first.touches second).2 - elapsed.toNat) := by
  rw [touches, parting_drift, discriminant_drift, pace_drift, touches]
  congr 1 <;> field_simp <;> ring

theorem ballSpell?_drift (elapsed : Millis) (first second : Ball ℝ) :
    (first.drift elapsed).ballSpell? (second.drift elapsed) =
      (first.ballSpell? second).map (.after elapsed) := by
  unfold ballSpell?
  rw [discriminant_drift]
  by_cases touch : 0 < first.discriminant second
  · rw [if_pos touch, if_pos touch, touches_drift (pace_pos_of_discriminant touch).ne']
    rfl
  · rw [if_neg touch, if_neg touch]
    rfl

/-- A ball is forecast to touch a line when the spell at it is noticed. -/
theorem lineContact?_eq_spell (sound : wall.isDegenerate = false)
    (moving : ball.rate wall = 0 ∨ negligible ≤ |ball.rate wall|) :
    ball.lineContact? wall = (ball.lineSpell? wall).bind Spell.notice? := by
  rw [lineContact?_eq sound (.inl rfl), lineSpell?_eq]
  simp only [one_mul]
  rcases moving with still | fast
  · rw [if_pos still, if_pos (by simpa [still] using negligible_pos)]
    rfl
  · have moves : ball.rate wall ≠ 0 := by
      intro still
      rw [still, abs_zero] at fast
      exact absurd fast (not_le.2 negligible_pos)
    rw [if_neg (not_lt.2 fast), if_neg moves, Option.bind_some, Spell.notice?]
    rcases moves.lt_or_gt with back | forth
    · rw [abs_of_neg back]
      congr 1 <;> field_simp <;> ring
    · rw [abs_of_pos forth, firstContact?_comm]
      congr 1 <;> field_simp <;> ring

/-- A ball whose spell at a line lies ahead comes closer to it. -/
theorem closer_of_lineSpell? {spell : Spell} (berth : 0 < ball.berth wall)
    (found : ball.lineSpell? wall = some spell) (ahead : 0 ≤ spell.begins) :
    ball.offset wall * ball.rate wall < 0 ∧
      spell.ends - spell.begins = 2000 * ball.berth wall / |ball.rate wall| := by
  rw [lineSpell?_eq] at found
  obtain ⟨moves, same⟩ := Option.ite_none_left_eq_some.1 found
  obtain rfl := Option.some.inj same
  constructor
  · have half : 0 < 1000 * ball.berth wall / |ball.rate wall| :=
      div_pos (by linarith) (abs_pos.2 moves)
    have later : 0 < -(1000 * ball.offset wall / ball.rate wall) :=
      lt_of_lt_of_le half (sub_nonneg.1 ahead)
    have product := mul_pos later (mul_self_pos.2 moves)
    have same : -(1000 * ball.offset wall / ball.rate wall) * (ball.rate wall * ball.rate wall) =
        -1000 * (ball.offset wall * ball.rate wall) := by
      field_simp
    linarith
  · ring

/-- Balls that are within reach of each other later are clear of each other and come closer. -/
theorem closer_of_touches (moving : 0 < first.pace second) (touch : 0 ≤ first.discriminant second)
    (ahead : 0 ≤ (first.touches second).1)
    (touched : 0 < first.discriminant second ∨ 0 < (first.touches second).1) :
    0 ≤ first.clearance second ∧ first.parting second < 0 := by
  have root := Real.sqrt_nonneg (first.discriminant second)
  have square := Real.sq_sqrt touch
  rw [touches, le_div_iff₀ moving] at ahead
  have far : √(first.discriminant second) ≤ -first.parting second := by linarith
  constructor
  · have product : 0 ≤ first.pace second * first.clearance second := by
      have less := pow_le_pow_left₀ root far 2
      rw [square, discriminant] at less
      nlinarith
    exact nonneg_of_mul_nonneg_right product moving
  · rcases touched with lasting | later
    · have positive := Real.sqrt_pos.2 lasting
      linarith
    · rw [touches, lt_div_iff₀ moving] at later
      linarith

/-- Two balls are forecast to touch when the spell for which they do is noticed. -/
theorem untilBall?_eq_spell
    (measured : first.drive second = Vec.zero ∨ negligible ≤ first.pace second)
    (lasting : 0 ≤ first.clearance second → first.parting second < 0 →
      0 ≤ first.discriminant second →
        instantaneous < (first.touches second).2 - (first.touches second).1) :
    first.untilBall? second =
      ((first.ballSpell? second).bind Spell.notice?).bind wholeMillis? := by
  rw [untilBall?_eq, ballSpell?]
  by_cases touch : 0 < first.discriminant second
  · have fast := measured.resolve_left fun still => by
      have moving := pace_pos_of_discriminant touch
      simp [pace, still, Vec.zero_eq, Vec.dot_eq] at moving
    rw [if_pos touch, if_neg (not_lt.2 fast), if_neg (not_lt.2 touch.le)]
    rfl
  · rw [if_neg touch]
    by_cases slow : first.pace second < negligible
    · rw [if_pos slow]
      rfl
    by_cases apart : first.discriminant second < 0
    · rw [if_neg slow, if_pos apart]
      rfl
    have moving := lt_of_lt_of_le negligible_pos (not_lt.1 slow)
    have graze : (first.touches second).2 = (first.touches second).1 := by
      rw [touches, le_antisymm (not_lt.1 touch) (not_lt.1 apart), Real.sqrt_zero, add_zero,
        sub_zero]
    have gone : (first.touches second).1 ≤ 0 := by
      by_contra later
      rw [not_le] at later
      obtain ⟨clear, closer⟩ := closer_of_touches moving (not_lt.1 apart) later.le (.inr later)
      have long := lasting clear closer (not_lt.1 apart)
      change (1e-6 : ℝ) < _ at long
      rw [graze, sub_self] at long
      norm_num at long
    have nothing : Spell.notice? ⟨(first.touches second).1, (first.touches second).2⟩ = none :=
      Spell.notice?_of_over graze.ge (graze.le.trans gone)
    rw [if_neg slow, if_neg apart]
    exact congrArg (·.bind wholeMillis?) nothing

/-- Spells end after they begin. -/
theorem begins_le_of_lineSpell? {spell : Spell} (berth : 0 < ball.berth wall)
    (found : ball.lineSpell? wall = some spell) : spell.begins ≤ spell.ends := by
  rw [lineSpell?_eq] at found
  obtain ⟨moves, same⟩ := Option.ite_none_left_eq_some.1 found
  obtain rfl := Option.some.inj same
  have half : 0 < 1000 * ball.berth wall / |ball.rate wall| :=
    div_pos (by linarith) (abs_pos.2 moves)
  change _ - _ ≤ _ + _
  linarith

theorem begins_le_of_ballSpell? {spell : Spell}
    (found : first.ballSpell? second = some spell) : spell.begins ≤ spell.ends := by
  obtain ⟨touch, same⟩ := Option.ite_none_right_eq_some.1 found
  obtain rfl := Option.some.inj same
  have root := Real.sqrt_nonneg (first.discriminant second)
  exact div_le_div_of_nonneg_right (by linarith) (pace_pos_of_discriminant touch).le

end Ball

/-- Every contact that lies ahead can be noticed: balls move along walls and alike, or differ from
that by a speed that is measured, and what comes closer does not pass in an instant. -/
def Table.Resolved (table : Table ℝ) : Prop := table.Noticed ∧ table.Discernible

/-- Nothing that comes closer is overlooked. A ball that comes closer to a wall's line does so at a
speed that is measured, and if it is there already, it is not through before that counts as
touching. Two balls that come closer and would touch do so at a relative speed that is measured, and
if they touch already, they would not part before that counts as touching. -/
structure Table.Heeded (table : Table ℝ) : Prop where
  walls : ∀ ball ∈ table.balls, ∀ wall ∈ table.walls, ball.offset wall * ball.rate wall < 0 →
    negligible ≤ |ball.rate wall| ∧
      (|ball.offset wall| = ball.berth wall →
        instantaneous < 2000 * ball.berth wall / |ball.rate wall|)
  pairs : table.balls.Pairwise fun first second =>
    first.parting second < 0 → 0 ≤ first.discriminant second →
      negligible ≤ first.pace second ∧
        (first.clearance second = 0 → instantaneous < (first.touches second).2)

namespace Table

variable {table : Table ℝ}

theorem Resolved.heeded (resolved : table.Resolved) : table.Heeded where
  walls ball member wall member' closer := by
    obtain ⟨moving, lasting⟩ := resolved.1 ball member wall member'
    refine ⟨moving.resolve_left fun still => ?_, fun _ => ?_⟩
    · rw [still, mul_zero] at closer
      exact absurd closer (lt_irrefl 0)
    · rw [Ball.berth, ← mul_assoc]
      exact lasting closer
  pairs := resolved.2.imp fun {first second} ⟨measured, lasting⟩ closer touch => by
    refine ⟨measured.resolve_left fun still => ?_, fun touching => ?_⟩
    · simp [Ball.parting, still, Vec.zero_eq, Vec.dot_eq] at closer
    · have ahead := Ball.touches_nonneg touching.ge closer
      have long := lasting touching.ge closer touch
      linarith

/-- What a ball comes closer to is forecast. -/
theorem Heeded.lineContact? {side : ℝ} {ball : Ball ℝ} {wall : Segment ℝ} (heeded : table.Heeded)
    (sound : table.Sound) (sign : side = 1 ∨ side = -1) (member : ball ∈ table.balls)
    (member' : wall ∈ table.walls) (clear : ball.berth wall ≤ side * ball.offset wall)
    (approaching : side * ball.rate wall < 0) :
    ball.lineContact? wall = some (ball.arrival side wall) := by
  have wide := sound.berth_pos member member'
  have closer := (sound.closer_iff sign member member' clear).2 approaching
  obtain ⟨fast, lasting⟩ := heeded.walls ball member wall member' closer
  refine Ball.lineContact?_of_clear (sound.walls wall member') sign clear wide.le fast approaching
    fun touching => lasting ?_
  rw [← abs_side_mul sign, touching, abs_of_pos wide]

/-- What two balls that come closer come to is forecast. -/
theorem Heeded.untilBall? {a b : BallId} {first second : Ball ℝ} (heeded : table.Heeded)
    (less : a < b) (here : table.balls[a]? = some first) (there : table.balls[b]? = some second)
    (clear : 0 ≤ first.clearance second) (closer : first.parting second < 0)
    (touch : 0 ≤ first.discriminant second) :
    first.untilBall? second = wholeMillis? (first.touches second).1 := by
  obtain ⟨inA, rfl⟩ := List.getElem?_eq_some_iff.1 here
  obtain ⟨inB, rfl⟩ := List.getElem?_eq_some_iff.1 there
  obtain ⟨fast, lasting⟩ := List.pairwise_iff_getElem.1 heeded.pairs a b inA inB less closer touch
  exact Ball.untilBall?_of_clear clear fast closer touch lasting

end Table

namespace Contact

variable {table : Table ℝ} {contact : Contact} {spell : Spell} {delay : Millis} {x : ℝ}

/-- The time for which a contact lasts if nothing else happens. -/
noncomputable def spell? (table : Table ℝ) : Contact → Option Spell
  | .wall ball side =>
    table.balls[ball]?.bind fun hit => table.walls[side]?.bind hit.lineSpell?
  | .pair a b =>
    if a < b then table.balls[a]?.bind fun first => table.balls[b]?.bind first.ballSpell? else none

/-- The ball comes closer to the wall's line, or the two balls come closer to each other. -/
def Approaches (table : Table ℝ) : Contact → Prop
  | .wall ball side =>
    ∃ hit line, table.balls[ball]? = some hit ∧ table.walls[side]? = some line ∧
      hit.offset line * hit.rate line < 0
  | .pair a b =>
    ∃ first second, table.balls[a]? = some first ∧ table.balls[b]? = some second ∧
      first.parting second < 0

/-- The time in milliseconds until a contact begins, if it has not begun. -/
noncomputable def onset? (table : Table ℝ) (contact : Contact) : Option ℝ :=
  (contact.spell? table).bind fun spell => if 0 ≤ spell.begins then some spell.begins else none

theorem onset?_eq_some :
    contact.onset? table = some x ↔
      ∃ spell, contact.spell? table = some spell ∧ 0 ≤ x ∧ spell.begins = x := by
  rw [onset?, Option.bind_eq_some_iff]
  constructor
  · rintro ⟨spell, found, begins⟩
    obtain ⟨ahead, same⟩ := Option.ite_none_right_eq_some.1 begins
    obtain rfl := Option.some.inj same
    exact ⟨spell, found, ahead, rfl⟩
  · rintro ⟨spell, found, ahead, rfl⟩
    exact ⟨spell, found, if_pos ahead⟩

theorem onset?_nonneg (comes : contact.onset? table = some x) : 0 ≤ x := by
  obtain ⟨_, _, ahead, _⟩ := onset?_eq_some.1 comes
  exact ahead

/-- Drifting brings a contact nearer. -/
theorem spell?_drift (elapsed : Millis) (table : Table ℝ) (contact : Contact) :
    contact.spell? (table.drift elapsed) = (contact.spell? table).map (.after elapsed) := by
  have balls (id : BallId) :
      (table.drift elapsed).balls[id]? = table.balls[id]?.map (Ball.drift elapsed) := by
    simp [Table.drift]
  have walls : (table.drift elapsed).walls = table.walls := rfl
  cases contact with
  | wall ball side =>
    rw [spell?, spell?, balls, walls]
    cases table.balls[ball]? with
    | none => rfl
    | some hit =>
      cases table.walls[side]? with
      | none => rfl
      | some line => exact hit.lineSpell?_drift elapsed line
  | pair a b =>
    rw [spell?, spell?, balls, balls]
    split
    · cases table.balls[a]? with
      | none => rfl
      | some first =>
        cases table.balls[b]? with
        | none => rfl
        | some second => exact first.ballSpell?_drift elapsed second
    · rfl

theorem onset?_drift {elapsed : Millis} :
    contact.onset? (table.drift elapsed) = some x ↔
      contact.onset? table = some (x + elapsed.toNat) ∧ 0 ≤ x := by
  rw [onset?_eq_some, onset?_eq_some, spell?_drift]
  have passed : (0 : ℝ) ≤ elapsed.toNat := Nat.cast_nonneg _
  constructor
  · rintro ⟨later, drifted, ahead, rfl⟩
    obtain ⟨spell, found, rfl⟩ := Option.map_eq_some_iff.1 drifted
    refine ⟨⟨spell, found, by linarith, ?_⟩, ahead⟩
    exact (sub_add_cancel _ _).symm
  · rintro ⟨⟨spell, found, _, begins⟩, ahead⟩
    refine ⟨_, Option.map_eq_some_iff.2 ⟨spell, found, rfl⟩, ahead, ?_⟩
    change spell.begins - _ = x
    rw [begins, add_sub_cancel_right]

/-- Spells end after they begin. -/
theorem begins_le (sound : table.Sound) (found : contact.spell? table = some spell) :
    spell.begins ≤ spell.ends := by
  cases contact with
  | wall ball side =>
    obtain ⟨hit, here, found⟩ := Option.bind_eq_some_iff.1 found
    obtain ⟨line, there, found⟩ := Option.bind_eq_some_iff.1 found
    have berth := sound.berth_pos (List.mem_of_getElem? here) (List.mem_of_getElem? there)
    exact Ball.begins_le_of_lineSpell? berth found
  | pair a b =>
    obtain ⟨_, found⟩ := Option.ite_none_right_eq_some.1 found
    obtain ⟨first, _, found⟩ := Option.bind_eq_some_iff.1 found
    obtain ⟨second, _, found⟩ := Option.bind_eq_some_iff.1 found
    exact Ball.begins_le_of_ballSpell? found

/-- Contacts that lie ahead are of what is there, and of what comes closer. -/
theorem approaches_of_ahead (sound : table.Sound) (found : contact.spell? table = some spell)
    (ahead : 0 ≤ spell.begins) : contact.At table ∧ contact.Approaches table := by
  cases contact with
  | wall ball side =>
    obtain ⟨hit, here, found⟩ := Option.bind_eq_some_iff.1 found
    obtain ⟨line, there, found⟩ := Option.bind_eq_some_iff.1 found
    have berth := sound.berth_pos (List.mem_of_getElem? here) (List.mem_of_getElem? there)
    refine ⟨⟨?_, ?_⟩, hit, line, here, there, (Ball.closer_of_lineSpell? berth found ahead).1⟩
    · exact (List.getElem?_eq_some_iff.1 here).1
    · exact (List.getElem?_eq_some_iff.1 there).1
  | pair a b =>
    obtain ⟨less, found⟩ := Option.ite_none_right_eq_some.1 found
    obtain ⟨first, here, found⟩ := Option.bind_eq_some_iff.1 found
    obtain ⟨second, there, found⟩ := Option.bind_eq_some_iff.1 found
    obtain ⟨touch, same⟩ := Option.ite_none_right_eq_some.1 found
    obtain rfl := Option.some.inj same
    have moving := Ball.pace_pos_of_discriminant touch
    refine ⟨⟨less, (List.getElem?_eq_some_iff.1 there).1⟩, first, second, here, there, ?_⟩
    exact (Ball.closer_of_touches moving touch.le ahead (.inl touch)).2

/-- Where contacts can be noticed, those that lie ahead last for longer than an instant. -/
theorem lasting_of_ahead (sound : table.Sound) (resolved : table.Resolved)
    (found : contact.spell? table = some spell) (ahead : 0 ≤ spell.begins) :
    instantaneous < spell.ends - spell.begins := by
  cases contact with
  | wall ball side =>
    obtain ⟨hit, here, found⟩ := Option.bind_eq_some_iff.1 found
    obtain ⟨line, there, found⟩ := Option.bind_eq_some_iff.1 found
    have ballIn := List.mem_of_getElem? here
    have wallIn := List.mem_of_getElem? there
    obtain ⟨closer, length⟩ :=
      Ball.closer_of_lineSpell? (sound.berth_pos ballIn wallIn) found ahead
    have lasting := (resolved.1 hit ballIn line wallIn).2 closer
    rwa [mul_assoc 2000, ← Ball.berth, ← length] at lasting
  | pair a b =>
    obtain ⟨less, found⟩ := Option.ite_none_right_eq_some.1 found
    obtain ⟨first, here, found⟩ := Option.bind_eq_some_iff.1 found
    obtain ⟨second, there, found⟩ := Option.bind_eq_some_iff.1 found
    obtain ⟨touch, same⟩ := Option.ite_none_right_eq_some.1 found
    obtain rfl := Option.some.inj same
    obtain ⟨clear, closer⟩ :=
      Ball.closer_of_touches (Ball.pace_pos_of_discriminant touch) touch.le ahead (.inl touch)
    exact (resolved.2.of_getElem? less here there).2 clear closer touch.le

end Contact

namespace Table

variable {table : Table ℝ} {contact : Contact} {spell : Spell} {delay : Millis} {x : ℝ}

/-- Contacts are forecast for when their spells are noticed. -/
theorem mem_forecasts_iff (sound : table.Sound) (line : table.reach = .line)
    (resolved : table.Resolved) :
    ⟨delay, contact⟩ ∈ table.forecasts ↔
      ((contact.spell? table).bind Spell.notice?).bind wholeMillis? = some delay := by
  cases contact with
  | wall ball side =>
    have forecast {hit : Ball ℝ} {wall : Segment ℝ} (here : table.balls[ball]? = some hit)
        (there : table.walls[side]? = some wall) : hit.untilWall? table.reach wall =
          (((Contact.wall ball side).spell? table).bind Spell.notice?).bind wholeMillis? := by
      have ballIn := List.mem_of_getElem? here
      have wallIn := List.mem_of_getElem? there
      simp only [Ball.untilWall?, line, Ball.untilLine?, Contact.spell?, here, there,
        Option.bind_some,
        Ball.lineContact?_eq_spell (sound.walls wall wallIn) (resolved.1 hit ballIn wall wallIn).1]
    rw [wall_mem_forecasts]
    constructor
    · rintro ⟨hit, wall, here, there, soon⟩
      exact forecast here there ▸ soon
    · intro soon
      obtain ⟨_, noticed, _⟩ := Option.bind_eq_some_iff.1 soon
      obtain ⟨_, found, _⟩ := Option.bind_eq_some_iff.1 noticed
      obtain ⟨hit, here, found⟩ := Option.bind_eq_some_iff.1 found
      obtain ⟨wall, there, _⟩ := Option.bind_eq_some_iff.1 found
      exact ⟨hit, wall, here, there, (forecast here there).trans soon⟩
  | pair a b =>
    have forecast {first second : Ball ℝ} (less : a < b) (here : table.balls[a]? = some first)
        (there : table.balls[b]? = some second) : first.untilBall? second =
          (((Contact.pair a b).spell? table).bind Spell.notice?).bind wholeMillis? := by
      obtain ⟨measured, lasting⟩ := resolved.2.of_getElem? less here there
      simp only [Contact.spell?, if_pos less, here, there, Option.bind_some,
        Ball.untilBall?_eq_spell measured lasting]
    rw [pair_mem_forecasts]
    constructor
    · rintro ⟨less, first, second, here, there, soon⟩
      exact forecast less here there ▸ soon
    · intro soon
      obtain ⟨_, noticed, _⟩ := Option.bind_eq_some_iff.1 soon
      obtain ⟨_, found, _⟩ := Option.bind_eq_some_iff.1 noticed
      obtain ⟨less, found⟩ := Option.ite_none_right_eq_some.1 found
      obtain ⟨first, here, found⟩ := Option.bind_eq_some_iff.1 found
      obtain ⟨second, there, _⟩ := Option.bind_eq_some_iff.1 found
      exact ⟨less, first, second, here, there, (forecast less here there).trans soon⟩

/-- A contact that lies ahead is forecast for when it begins. -/
theorem mem_forecasts_iff_of_onset (sound : table.Sound) (line : table.reach = .line)
    (resolved : table.Resolved) (comes : contact.onset? table = some x) :
    ⟨delay, contact⟩ ∈ table.forecasts ↔ wholeMillis? x = some delay := by
  obtain ⟨spell, found, ahead, rfl⟩ := Contact.onset?_eq_some.1 comes
  have lasting := Contact.lasting_of_ahead sound resolved found ahead
  rw [mem_forecasts_iff sound line resolved, found, Option.bind_some,
    Spell.notice?_of_ahead ahead lasting, Option.bind_some]

/-- A contact that is forecast and has begun is not over. -/
theorem inside_of_forecast (sound : table.Sound) (line : table.reach = .line)
    (resolved : table.Resolved) (member : ⟨delay, contact⟩ ∈ table.forecasts)
    (begun : contact.onset? table = none) :
    ∃ spell, contact.spell? table = some spell ∧ spell.begins < 0 ∧ 0 < spell.ends := by
  rw [mem_forecasts_iff sound line resolved] at member
  obtain ⟨time, noticed, _⟩ := Option.bind_eq_some_iff.1 member
  obtain ⟨spell, found, noticed⟩ := Option.bind_eq_some_iff.1 noticed
  refine ⟨spell, found, ?_, ?_⟩
  · by_contra ahead
    have comes := Contact.onset?_eq_some.2 ⟨spell, found, not_lt.1 ahead, rfl⟩
    simp [comes] at begun
  · by_contra gone
    rw [Spell.notice?_of_over (Contact.begins_le sound found) (not_lt.1 gone)] at noticed
    cases noticed

/-- Every ball is clear of every wall's line and, where balls exchange momentum, of every other
ball; what is settled does not come closer. -/
structure Clear (table : Table ℝ) (settled : List Contact) : Prop where
  walls : ∀ id place, ∃ side : ℝ, (side = 1 ∨ side = -1) ∧ table.Beside side id place settled
  pairs : table.response = .elastic → ∀ a b, a < b → table.Apart a b settled

/-- Two balls that pass through each other. -/
def Passes (table : Table ℝ) (contact : Contact) : Prop :=
  table.response = .pass ∧ ∃ a b, contact = .pair a b

/-- Two balls that pass through each other keep their velocities. -/
theorem Passes.eq_of_effect? {after : Table ℝ} (passes : table.Passes contact)
    (met : contact.effect? table = some after) : after = table := by
  obtain ⟨pass, a, b, rfl⟩ := passes
  simp only [Contact.effect?, meet?, pass] at met
  generalize (if a < b then a else b) = low at met
  generalize (if a < b then b else a) = high at met
  split at met
  · cases met
  · split at met
    · exact (Option.some.inj met).symm
    · cases met

namespace Clear

variable {settled : List Contact}

/-- Where all is clear, only balls that pass through each other are ever within reach. -/
theorem passes_of_inside (clear : table.Clear settled)
    (found : contact.spell? table = some spell) (begun : spell.begins < 0)
    (lasts : 0 < spell.ends) : table.Passes contact := by
  cases contact with
  | wall ball place =>
    obtain ⟨hit, here, found⟩ := Option.bind_eq_some_iff.1 found
    obtain ⟨line, there, found⟩ := Option.bind_eq_some_iff.1 found
    rw [Ball.lineSpell?_eq] at found
    obtain ⟨moves, same⟩ := Option.ite_none_left_eq_some.1 found
    obtain rfl := Option.some.inj same
    obtain ⟨side, sign, beside⟩ := clear.walls ball place
    have beyond : hit.berth line ≤ |hit.offset line| := by
      refine (beside hit line here there).1.trans ?_
      rcases sign with rfl | rfl
      · rw [one_mul]
        exact le_abs_self _
      · rw [neg_one_mul]
        exact neg_le_abs _
    have size : |1000 * hit.offset line / hit.rate line| =
        1000 * |hit.offset line| / |hit.rate line| := by
      rw [abs_div, abs_mul, abs_of_pos (by norm_num : (0 : ℝ) < 1000)]
    have within : |1000 * hit.offset line / hit.rate line| <
        1000 * hit.berth line / |hit.rate line| := by
      refine abs_lt.2 ⟨?_, ?_⟩
      · linarith
      · linarith
    rw [size, div_lt_div_iff_of_pos_right (abs_pos.2 moves)] at within
    linarith
  | pair a b =>
    obtain ⟨less, found⟩ := Option.ite_none_right_eq_some.1 found
    obtain ⟨first, here, found⟩ := Option.bind_eq_some_iff.1 found
    obtain ⟨second, there, found⟩ := Option.bind_eq_some_iff.1 found
    obtain ⟨touch, same⟩ := Option.ite_none_right_eq_some.1 found
    obtain rfl := Option.some.inj same
    have moving := Ball.pace_pos_of_discriminant touch
    refine ⟨?_, a, b, rfl⟩
    cases response : table.response with
    | pass => rfl
    | elastic =>
      have apart := (clear.pairs response a b less first second here there).1
      rw [Ball.touches, div_lt_iff₀ moving] at begun
      rw [Ball.touches, lt_div_iff₀ moving] at lasts
      have within : |first.parting second| < √(first.discriminant second) :=
        abs_lt.2 ⟨by linarith, by linarith⟩
      have square := Real.lt_sqrt (abs_nonneg _) |>.1 within
      rw [sq_abs, Ball.discriminant, sq] at square
      have product := mul_nonneg moving.le apart
      linarith

/-- Where all is clear, no settled contact is of what comes closer but of balls that pass through
each other. -/
theorem passes_of_approaches (clear : table.Clear settled) (sound : table.Sound)
    (held : contact ∈ settled) (there : contact.At table)
    (approaches : contact.Approaches table) : table.Passes contact := by
  cases contact with
  | wall ball place =>
    obtain ⟨hit, line, here, there, closer⟩ := approaches
    obtain ⟨side, sign, beside⟩ := clear.walls ball place
    obtain ⟨beyond, leaving⟩ := beside hit line here there
    rw [sound.closer_iff sign (List.mem_of_getElem? here) (List.mem_of_getElem? there) beyond]
      at closer
    exact absurd closer (not_lt.2 (leaving held))
  | pair a b =>
    obtain ⟨first, second, here, there', closer⟩ := approaches
    refine ⟨?_, a, b, rfl⟩
    cases response : table.response with
    | pass => rfl
    | elastic =>
      have parts := (clear.pairs response a b there.1 first second here there').2 held
      exact absurd closer (not_lt.2 parts)

/-- So none of these lies ahead. -/
theorem passes_of_settled (clear : table.Clear settled) (sound : table.Sound)
    (held : contact ∈ settled) (comes : contact.onset? table = some x) :
    table.Passes contact := by
  obtain ⟨spell, found, ahead, rfl⟩ := Contact.onset?_eq_some.1 comes
  obtain ⟨there, approaches⟩ := Contact.approaches_of_ahead sound found ahead
  exact clear.passes_of_approaches sound held there approaches

/-- What a conductor reacts with keeps all clear. -/
theorem react {after : Table ℝ} {ready waiting next : Conductor} {signal : Signal} {now : Instant}
    (sound : table.Sound) (line : table.reach = .line) (heeded : table.Heeded)
    (sizable : table.response = .elastic → table.Sizable) (clear : table.Clear waiting.settled)
    (follows : ready.follows table = some (delay, signal, waiting))
    (reacts : waiting.reaction? now signal table = some (after, next)) :
    after.Clear next.settled := by
  have early := Conductor.no_sooner_of_follows follows
  constructor
  · intro id place
    obtain ⟨side, sign, beside⟩ := clear.walls id place
    have drifted : (table.drift delay).Beside side id place waiting.settled :=
      beside.drift_of_forecast line (fun _ _ here there => heeded.lineContact? sound sign
        (List.mem_of_getElem? here) (List.mem_of_getElem? there)) early
    exact ⟨side, sign, beside.react_of_drift sound sign drifted follows reacts⟩
  · intro elastic a b less
    rw [(Conductor.resembles_of_reaction? reacts).response] at elastic
    have drifted : (table.drift delay).Apart a b waiting.settled :=
      (clear.pairs elastic a b less).drift_of_forecast less
        (fun _ _ => heeded.untilBall? less) early
    exact drifted.react_of_drift (sizable elastic) elastic less follows reacts

end Clear

end Table

end Billiard
