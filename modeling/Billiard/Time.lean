/-!
Simulated time. Instants count whole milliseconds since the simulation began; the last instant is
`2 ^ 64 - 1`, and what would lie beyond it happens then.
-/

namespace Billiard

/-- A length of time in whole milliseconds. -/
abbrev Millis := UInt64

/-- A point in time, in whole milliseconds since the beginning. -/
abbrev Instant := UInt64

namespace Instant

/-- The last instant. -/
def last : Instant := 0xffffffffffffffff

/-- The instant `delay` after `now`, or the last one if there is none. -/
def after (now : Instant) (delay : Millis) : Instant :=
  if last - now < delay then last else now + delay

/-- A clock that showed `now` and is told that it is `t`: a clock never runs backwards. -/
def advance (now t : Instant) : Instant :=
  if now < t then t else now

theorem toNat_last : last.toNat = 0xffffffffffffffff := rfl

theorem toNat_after (now : Instant) (delay : Millis) :
    (now.after delay).toNat = min (now.toNat + delay.toNat) last.toNat := by
  have most := toNat_last
  have bound := now.toNat_lt
  have below : now ≤ last := by
    rw [UInt64.le_iff_toNat_le]
    omega
  have room := UInt64.toNat_sub_of_le _ _ below
  unfold after
  split
  · next beyond =>
    rw [UInt64.lt_iff_toNat_lt, room] at beyond
    omega
  · next within =>
    rw [UInt64.lt_iff_toNat_lt, room] at within
    rw [UInt64.toNat_add]
    omega

theorem toNat_advance (now t : Instant) : (now.advance t).toNat = max now.toNat t.toNat := by
  unfold advance
  split
  · next later =>
    rw [UInt64.lt_iff_toNat_lt] at later
    omega
  · next notLater =>
    rw [UInt64.lt_iff_toNat_lt] at notLater
    omega

end Instant

end Billiard
