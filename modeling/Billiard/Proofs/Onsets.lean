import Billiard.Proofs.Unfolding

/-!
What a conductor does about the contacts that lie ahead. With every event that it waits for, either
the first open one takes place, or the table only drifts and none of them begins (`Advances`); so a
table unfolds under a conductor as it does if nobody looks at it (`Unfolds.of_advances`).
-/

namespace Billiard

variable {table after : Table ℝ} {settled settled' : List Contact} {contact other : Contact}
  {x y : ℝ} {now horizon : Instant} {delay : Millis} {signal : Signal} {event : Event}
  {ready waiting next : Conductor}

/-- The contact that begins with an event. -/
noncomputable def Event.beginning? (table : Table ℝ) (event : Event) : Option (Instant × Contact) :=
  event.signal.contact?.bind fun contact => (contact.onset? table).map fun _ => (event.due, contact)

/-- Every delay is shorter than the whole milliseconds that no clock can count. -/
theorem Millis.toNat_lt_floor (far : 2 ^ 64 ≤ y) : delay.toNat < ⌊y⌋₊ := by
  have next : ((delay.toNat + 1 : ℕ) : ℝ) ≤ 2 ^ 64 := by
    exact_mod_cast Nat.succ_le_of_lt delay.toNat_lt
  exact Nat.lt_of_succ_le (Nat.le_floor (next.trans far))

/-- What becomes of the contacts that lie ahead when a signal comes after `delay`: the first open
one takes place, or none does and the table drifts no further than to the first. -/
inductive Advances (table : Table ℝ) (settled : List Contact) (delay : Millis) (signal : Signal)
    (after : Table ℝ) (settled' : List Contact) : Prop where
  | meets {contact : Contact} {x : ℝ} (earliest : Earliest table settled contact x)
      (floored : delay.toNat = ⌊x⌋₊) (announces : signal.contact? = some contact)
      (met : contact.effect? (table.drift delay) = some after)
      (same : settled' = contact.settledWith (table.drift delay) after
        (if delay = 0 then settled else []))
  | drifts (silent : ∀ contact, signal.contact? = some contact →
        contact.onset? table = none ∧ table.Passes contact)
      (same : after = table.drift delay)
      (early : ∀ contact x, contact.onset? table = some x → contact ∉ settled →
        (delay.toNat : ℝ) ≤ x)
      (agree : Agree after settled' (if delay = 0 then settled else []))

/-- A contact that has begun and changes nothing adds nothing to what is settled of the contacts
that lie ahead. -/
theorem Contact.agree_settledWith (begun : contact.onset? table = none) :
    Agree (table.drift delay) (contact.settledWith (table.drift delay) (table.drift delay) settled)
      settled := by
  intro other x ahead
  rw [mem_settledWith]
  constructor
  · rintro (rfl | ⟨held, _⟩)
    · rw [onset?_drift, begun] at ahead
      cases ahead.1
    · exact held
  · intro held
    exact .inr ⟨held, fun ball _ turned => by simp [Conductor.deflected] at turned⟩

namespace Conductor

/-- The event to wait for comes no later than any open contact that lies ahead. -/
theorem early_of_follows (sound : table.Sound) (line : table.reach = .line)
    (resolved : table.Resolved) (follows : ready.follows table = some (delay, signal, waiting))
    (comes : contact.onset? table = some x) (isOpen : contact ∉ waiting.settled) :
    (delay.toNat : ℝ) ≤ x := by
  rw [(follows_kept follows).1] at isOpen
  apply Scalar.toNat_le_of_early (Contact.onset?_nonneg comes)
  intro whole counted
  have member := (Table.mem_forecasts_iff_of_onset sound line resolved comes).2 counted
  exact delay_le_of_follows follows member isOpen

/-- The next contact is the earliest, if it has not begun. -/
theorem earliest_of_nextContact? (sound : table.Sound) (line : table.reach = .line)
    (resolved : table.Resolved) (found : table.nextContact? settled = some ⟨delay, contact⟩)
    (comes : contact.onset? table = some x) :
    Earliest table settled contact x ∧ delay.toNat = ⌊x⌋₊ := by
  obtain ⟨member, isOpen⟩ := Table.nextContact?_mem found
  rw [Table.mem_forecasts_iff_of_onset sound line resolved comes] at member
  have floored := (Scalar.toNat_of_wholeMillis? member).2
  refine ⟨⟨comes, isOpen, ?_⟩, floored⟩
  intro other y comes' isOpen'
  rw [← floored]
  cases counted : Scalar.wholeMillis? y with
  | none =>
    have far := Scalar.large_of_wholeMillis?_eq_none (Contact.onset?_nonneg comes') counted
    exact .inl (Millis.toNat_lt_floor far)
  | some whole =>
    have member' := (Table.mem_forecasts_iff_of_onset sound line resolved comes').2 counted
    rw [← (Scalar.toNat_of_wholeMillis? counted).2]
    rcases Table.nextContact?_least found member' isOpen' with less | ⟨same, lower⟩
    · exact .inl (UInt64.lt_iff_toNat_lt.1 less)
    · exact .inr ⟨congrArg UInt64.toNat same, lower⟩

/-- What is settled is so for one instant only. -/
theorem settled_atInstant (early : waiting.settledAt.after delay < Instant.last) :
    (waiting.atInstant (waiting.settledAt.after delay)).settled =
      if delay = 0 then waiting.settled else [] := by
  have before : waiting.settledAt < Instant.last :=
    UInt64.lt_of_le_of_lt (Instant.le_after _ delay) early
  unfold atInstant
  by_cases atOnce : delay = 0
  · rw [if_pos atOnce, if_pos]
    have most := UInt64.lt_iff_toNat_lt.1 before
    apply UInt64.toNat_inj.1
    rw [atOnce, Instant.toNat_after]
    change min (waiting.settledAt.toNat + 0) _ = _
    omega
  · rw [if_neg atOnce, if_neg (mt (Instant.delay_eq_zero before) atOnce)]

/-- The contact that is announced takes place if it lies ahead. If it has begun, the balls pass
through each other, and it only becomes settled. -/
theorem advances_of_collided (sound : table.Sound) (line : table.reach = .line)
    (resolved : table.Resolved) (clear : table.Clear waiting.settled)
    (open_early : ∀ contact x, contact.onset? table = some x → contact ∉ waiting.settled →
      (delay.toNat : ℝ) ≤ x)
    (found : table.nextContact? waiting.settled = some ⟨delay, contact⟩)
    (collides : waiting.collided (waiting.settledAt.after delay) contact delay table =
      (after, next))
    (early : waiting.settledAt.after delay < Instant.last) :
    Advances table waiting.settled delay (.ofContact contact delay) after next.settled := by
  have member := (Table.nextContact?_mem found).1
  have there := Table.at_of_mem_forecasts member
  have announces : (Signal.ofContact contact delay).contact? = some contact :=
    Signal.contact?_ofContact there
  obtain ⟨met, effect⟩ := Option.isSome_iff_exists.1 (Contact.effect?_isSome
    (there.of_resembles (Table.Resembles.drift delay table).symm))
  simp only [collided, effect, Option.getD_some, Prod.mk.injEq] at collides
  obtain ⟨rfl, rfl⟩ := collides
  rw [Contact.settled_settle, settled_atInstant early]
  cases comes : contact.onset? table with
  | some x =>
    obtain ⟨earliest, floored⟩ := earliest_of_nextContact? sound line resolved found comes
    exact .meets earliest floored announces effect rfl
  | none =>
    obtain ⟨spell, within, begun, lasts⟩ :=
      Table.inside_of_forecast sound line resolved member comes
    have passes : (table.drift delay).Passes contact := clear.passes_of_inside within begun lasts
    obtain rfl := passes.eq_of_effect? effect
    refine .drifts ?_ rfl open_early (Contact.agree_settledWith comes)
    intro other announced
    rw [announces, Option.some.injEq] at announced
    exact announced ▸ ⟨comes, passes⟩

/-- Every reaction advances the table. -/
theorem advances_of_reaction? (sound : table.Sound) (line : table.reach = .line)
    (resolved : table.Resolved) (clear : table.Clear waiting.settled) (paced : waiting.Paced)
    (follows : ready.follows table = some (delay, signal, waiting))
    (reacts : waiting.reaction? (waiting.settledAt.after delay) signal table = some (after, next))
    (early : waiting.settledAt.after delay < Instant.last) :
    Advances table waiting.settled delay signal after next.settled := by
  have open_early (contact : Contact) (x : ℝ) (comes : contact.onset? table = some x) :
      contact ∉ waiting.settled → (delay.toNat : ℝ) ≤ x :=
    early_of_follows sound line resolved follows comes
  rcases reaction_of_follows follows reacts with
    ⟨contact, found, rfl, collides⟩ | ⟨rfl, rfl, beats, paints⟩
  · exact advances_of_collided sound line resolved clear open_early found collides early
  · simp only [painted, Prod.mk.injEq] at paints
    obtain ⟨rfl, rfl⟩ := paints
    refine .drifts (fun contact announced => by cases announced) rfl open_early ?_
    obtain ⟨length, beats⟩ := Option.ne_none_iff_exists'.1 beats
    have left := (paced length beats).1
    rw [if_neg (UInt64.pos_iff_ne_zero.1 left)]
    exact fun _ _ _ => Iff.rfl

end Conductor

namespace Advances

variable {list : List (Instant × Contact)} {last : Table ℝ}

/-- What is settled and still lies ahead begins within the millisecond. -/
theorem near (advances : Advances table settled delay signal after settled')
    (sound : after.Sound) (clear : after.Clear settled') (near : Near table settled) :
    Near after settled' := by
  have kept {other : Contact} {y : ℝ} (comes : other.onset? (table.drift delay) = some y)
      (held : other ∈ if delay = 0 then settled else []) : y < 1 := by
    split at held
    · next none =>
      rw [none, Table.drift_zero] at comes
      exact near other y comes held
    · cases held
  intro other y comes held
  cases advances with
  | @meets contact x earliest floored _ met same =>
    rw [same, Contact.mem_settledWith] at held
    rcases held with rfl | ⟨held, straight⟩
    · have passes : (table.drift delay).Passes other := by
        have settles : other ∈ settled' := same ▸ Contact.mem_settledWith.2 (.inl rfl)
        obtain ⟨pass, two⟩ := clear.passes_of_settled sound settles comes
        exact ⟨(Contact.resembles_of_effect? met).response ▸ pass, two⟩
      rw [passes.eq_of_effect? met, Contact.onset?_drift, earliest.comes,
        Option.some.injEq] at comes
      have part := Nat.lt_floor_add_one x
      rw [← floored] at part
      linarith [comes.1]
    · rw [Contact.onset?, Contact.spell?_of_effect? met straight] at comes
      exact kept comes held
  | drifts _ same _ agree =>
    have held := (agree other y comes).1 held
    rw [same] at comes
    exact kept comes held

/-- Where balls exchange momentum, every contact that is announced begins. -/
theorem beginning?_of_elastic
    (advances : Advances table settled delay event.signal after settled')
    (elastic : table.response = .elastic) :
    event.beginning? table = event.signal.contact?.map fun contact => (event.due, contact) := by
  rw [Event.beginning?]
  cases advances with
  | meets earliest _ announces _ _ =>
    rw [announces, Option.bind_some, earliest.comes]
    rfl
  | drifts silent _ _ _ =>
    cases announced : event.signal.contact? with
    | none => rfl
    | some contact =>
      have pass := (silent contact announced).2.1
      rw [elastic] at pass
      cases pass

end Advances

/-- A table unfolds as it advances. -/
theorem Unfolds.of_advances {list : List (Instant × Contact)} {last : Table ℝ}
    (advances : Advances table settled delay event.signal after settled')
    (near : Near table settled) (due : event.due = now + delay)
    (within : now.toNat + delay.toNat ≤ horizon.toNat)
    (unfolds : Unfolds horizon event.due after settled' list last) :
    Unfolds horizon now table settled ((event.beginning? table).toList ++ list) last := by
  rw [due] at unfolds
  cases advances with
  | @meets contact x earliest floored announces met same =>
    have begins : event.beginning? table = some (now + delay, contact) := by
      rw [Event.beginning?, announces, Option.bind_some, earliest.comes, due]
      rfl
    rw [begins]
    exact .meets earliest floored within met (same ▸ unfolds)
  | drifts silent same early agree =>
    have begins : event.beginning? table = none := by
      rw [Event.beginning?]
      cases announced : event.signal.contact? with
      | none => rfl
      | some contact => rw [Option.bind_some, (silent contact announced).1, Option.map_none]
    rw [begins]
    subst same
    exact unfolds.of_lull within near ⟨early, agree⟩

end Billiard
