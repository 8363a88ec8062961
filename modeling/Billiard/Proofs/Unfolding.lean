import Billiard.Proofs.Precedence
import Billiard.Proofs.Repeats
import Billiard.Proofs.Spells

/-!
How a table unfolds if nobody looks at it. Of the contacts that lie ahead the first one takes place,
by whole milliseconds and rank, and then the first one after that, up to a horizon (`Unfolds`); this
can happen in one way only (`Unfolds.unique`). Nothing else that a conductor deals with makes a
difference: beats, and the ends of contacts of balls that pass through each other, only let the
table drift, and what is the earliest after such a lull was so before (`Unfolds.of_lull`).
-/

namespace Billiard

variable {table before after : Table ℝ} {settled settled' : List Contact} {contact other : Contact}
  {x y : ℝ} {now horizon : Instant} {delay elapsed : Millis}

/-- Drifting on. -/
theorem Table.drift_drift (fits : delay.toNat + elapsed.toNat < UInt64.size) :
    (table.drift delay).drift elapsed = table.drift (delay + elapsed) := by
  have sum : ((delay + elapsed).toNat : ℝ) = delay.toNat + elapsed.toNat := by
    rw [UInt64.toNat_add, Nat.mod_eq_of_lt fits]
    push_cast
    rfl
  have moves (ball : Ball ℝ) : (ball.drift delay).drift elapsed = ball.drift (delay + elapsed) := by
    change ({ ball with position := ball.position + ball.velocity * ((delay.toNat : ℝ) / 1000.0) +
        ball.velocity * ((elapsed.toNat : ℝ) / 1000.0) } : Ball ℝ) =
      { ball with position :=
          ball.position + ball.velocity * (((delay + elapsed).toNat : ℝ) / 1000.0) }
    have thousand : (1000.0 : ℝ) = 1000 := by norm_num
    rw [thousand, sum]
    congr 1
    simp only [Vec.add_eq, Vec.smul_eq, Vec.mk.injEq]
    constructor <;> ring
  calc (table.drift delay).drift elapsed
      = { table with balls := (table.balls.map (·.drift delay)).map (·.drift elapsed) } := rfl
    _ = { table with balls := table.balls.map (·.drift (delay + elapsed)) } := by
      rw [List.map_map]
      simp only [Function.comp_def, moves]
    _ = table.drift (delay + elapsed) := rfl

namespace Contact

/-- What is settled after a contact has taken one table to another. -/
def settledWith {K : Type} [Scalar K] (before after : Table K) (settled : List Contact)
    (contact : Contact) : List Contact :=
  ({ Conductor.new none with settled := settled }.settle before after contact).settled

theorem mem_settledWith :
    other ∈ contact.settledWith before after settled ↔
      other = contact ∨ other ∈ settled ∧ ∀ ball ∈ contact.balls,
        Conductor.deflected before after ball → other.involves ball = false :=
  Conductor.mem_settle

theorem settled_settle {conductor : Conductor} :
    (conductor.settle before after contact).settled =
      contact.settledWith before after conductor.settled := rfl

/-- A contact leaves a ball as it is that it does not deflect. -/
theorem getElem?_of_effect? {id : BallId} (met : contact.effect? before = some after)
    (straight : id ∈ contact.balls → ¬Conductor.deflected before after id) :
    after.balls[id]? = before.balls[id]? := by
  cases found : after.balls[id]? with
  | none =>
    rw [List.getElem?_eq_none_iff, (resembles_of_effect? met).length] at found
    exact (List.getElem?_eq_none_iff.2 found).symm
  | some ball =>
    obtain ⟨old, here, position, radius, aside⟩ := balls_of_effect? met found
    rw [here, Option.some.injEq]
    by_cases part : id ∈ contact.balls
    · have velocity := Table.velocity_of_not_deflected found here (straight part)
      cases ball
      cases old
      simp_all
    · exact aside part

/-- A contact does not change when others take place that share no deflected ball with it. -/
theorem spell?_of_effect? (met : contact.effect? before = some after)
    (kept : ∀ ball ∈ contact.balls, Conductor.deflected before after ball →
      other.involves ball = false) : other.spell? after = other.spell? before := by
  have same (id : BallId) (part : other.involves id) : after.balls[id]? = before.balls[id]? := by
    apply getElem?_of_effect? met
    intro member turned
    have aside := kept id member turned
    simp [part] at aside
  have walls := (resembles_of_effect? met).walls
  cases other with
  | wall ball side => rw [spell?, spell?, same ball (by simp [involves, balls]), walls]
  | pair a b =>
    rw [spell?, spell?, same a (by simp [involves, balls]), same b (by simp [involves, balls])]

end Contact

/-- The same contacts of those that lie ahead are settled. -/
def Agree (table : Table ℝ) (settled settled' : List Contact) : Prop :=
  ∀ contact x, contact.onset? table = some x → (contact ∈ settled ↔ contact ∈ settled')

/-- After a contact, the same is settled if the same was settled before. -/
theorem Agree.settledWith (agree : Agree before settled settled')
    (met : contact.effect? before = some after) :
    Agree after (contact.settledWith before after settled)
      (contact.settledWith before after settled') := by
  intro other x comes
  rw [Contact.mem_settledWith, Contact.mem_settledWith]
  refine or_congr_right (and_congr_left fun kept => ?_)
  apply agree other x
  rw [Contact.onset?, Contact.spell?_of_effect? met kept] at comes
  exact comes

/-- A contact that is open is the earliest of all that lie ahead: it comes after the least number of
whole milliseconds, and with the lowest rank of those that come with it. -/
structure Earliest (table : Table ℝ) (settled : List Contact) (contact : Contact) (x : ℝ) :
    Prop where
  comes : contact.onset? table = some x
  isOpen : contact ∉ settled
  least : ∀ other y, other.onset? table = some y → other ∉ settled →
    ⌊x⌋₊ < ⌊y⌋₊ ∨ ⌊x⌋₊ = ⌊y⌋₊ ∧ contact.rank ≤ other.rank

/-- Only one contact comes first. -/
theorem Earliest.unique (earliest : Earliest table settled contact x)
    (earliest' : Earliest table settled other y) : contact = other ∧ x = y := by
  have forth := earliest.least other y earliest'.comes earliest'.isOpen
  have back := earliest'.least contact x earliest.comes earliest.isOpen
  have same : contact = other := by
    apply Contact.rank_injective
    rcases forth with less | ⟨_, lower⟩
    · omega
    · rcases back with less | ⟨_, lower'⟩
      · omega
      · exact le_antisymm lower lower'
  subst same
  exact ⟨rfl, Option.some.inj (earliest.comes.symm.trans earliest'.comes)⟩

/-- From a table at an instant at which some contacts are settled, these contacts follow up to the
horizon, each at its instant, and then the table drifts on to the last one. -/
inductive Unfolds (horizon : Instant) :
    Instant → Table ℝ → List Contact → List (Instant × Contact) → Table ℝ → Prop where
  | rests {now : Instant} {table : Table ℝ} {settled : List Contact}
      (beyond : ∀ contact x, contact.onset? table = some x → contact ∉ settled →
        horizon.toNat < now.toNat + ⌊x⌋₊) :
      Unfolds horizon now table settled [] (table.drift (horizon - now))
  | meets {now : Instant} {delay : Millis} {table after last : Table ℝ} {settled : List Contact}
      {contact : Contact} {x : ℝ} {rest : List (Instant × Contact)}
      (earliest : Earliest table settled contact x) (floored : delay.toNat = ⌊x⌋₊)
      (within : now.toNat + delay.toNat ≤ horizon.toNat)
      (met : contact.effect? (table.drift delay) = some after)
      (later : Unfolds horizon (now + delay) after (contact.settledWith (table.drift delay) after
        (if delay = 0 then settled else [])) rest last) :
      Unfolds horizon now table settled ((now + delay, contact) :: rest) last

namespace Unfolds

variable {list list' : List (Instant × Contact)} {last last' : Table ℝ}

/-- A table unfolds in one way only. -/
theorem unique (unfolds : Unfolds horizon now table settled list last)
    (unfolds' : Unfolds horizon now table settled list' last') : list = list' ∧ last = last' := by
  induction unfolds generalizing list' last' with
  | rests beyond =>
    cases unfolds' with
    | rests _ => exact ⟨rfl, rfl⟩
    | meets earliest floored within _ _ =>
      have late := beyond _ _ earliest.comes earliest.isOpen
      omega
  | meets earliest floored within met _ ih =>
    cases unfolds' with
    | rests beyond =>
      have late := beyond _ _ earliest.comes earliest.isOpen
      omega
    | meets earliest' floored' _ met' later' =>
      obtain ⟨rfl, rfl⟩ := earliest.unique earliest'
      obtain rfl := UInt64.toNat_inj.1 (floored.trans floored'.symm)
      obtain rfl := Option.some.inj (met.symm.trans met')
      obtain ⟨rfl, rfl⟩ := ih later'
      exact ⟨rfl, rfl⟩

/-- Only what lies ahead matters of what is settled. -/
theorem congr (unfolds : Unfolds horizon now table settled list last)
    (agree : Agree table settled settled') : Unfolds horizon now table settled' list last := by
  induction unfolds generalizing settled' with
  | rests beyond =>
    refine .rests fun contact x comes isOpen => ?_
    exact beyond contact x comes fun held => isOpen ((agree contact x comes).1 held)
  | @meets now delay table after _ settled contact x _ earliest floored within met _ ih =>
    refine .meets ⟨earliest.comes, ?_, ?_⟩ floored within met (ih (Agree.settledWith ?_ met))
    · exact fun held => earliest.isOpen ((agree contact x earliest.comes).2 held)
    · intro other y comes isOpen
      exact earliest.least other y comes fun held => isOpen ((agree other y comes).1 held)
    · by_cases atOnce : delay = 0
      · rw [if_pos atOnce, if_pos atOnce, atOnce, Table.drift_zero]
        exact agree
      · rw [if_neg atOnce, if_neg atOnce]
        exact fun _ _ _ => Iff.rfl

end Unfolds

/-- Settled contacts that still lie ahead begin within the millisecond. -/
def Near (table : Table ℝ) (settled : List Contact) : Prop :=
  ∀ contact x, contact.onset? table = some x → contact ∈ settled → x < 1

/-- A table drifts and reaches no open contact that lies ahead, and what is settled afterwards was
settled before, if no time has passed. -/
structure Lull (table : Table ℝ) (settled : List Contact) (elapsed : Millis)
    (kept : List Contact) : Prop where
  early : ∀ contact x, contact.onset? table = some x → contact ∉ settled → (elapsed.toNat : ℝ) ≤ x
  agree : Agree (table.drift elapsed) kept (if elapsed = 0 then settled else [])

namespace Lull

variable {kept : List Contact}

/-- What lies ahead and is open still does after a lull. -/
theorem remains (lull : Lull table settled elapsed kept) (comes : contact.onset? table = some x)
    (isOpen : contact ∉ settled) :
    (elapsed.toNat : ℝ) ≤ x ∧ contact.onset? (table.drift elapsed) = some (x - elapsed.toNat) ∧
      contact ∉ kept := by
  have later := lull.early contact x comes isOpen
  have drifted : contact.onset? (table.drift elapsed) = some (x - elapsed.toNat) :=
    Contact.onset?_drift.2 ⟨by rw [sub_add_cancel]; exact comes, sub_nonneg.2 later⟩
  refine ⟨later, drifted, fun held => ?_⟩
  have settled := (lull.agree contact _ drifted).1 held
  split at settled
  · exact isOpen settled
  · cases settled

/-- What is open after a lull and still lies ahead was open before. -/
theorem open_of_drift (lull : Lull table settled elapsed kept) (near : Near table settled)
    (comes : contact.onset? (table.drift elapsed) = some x) (isOpen : contact ∉ kept) :
    contact ∉ settled := by
  intro held
  obtain ⟨before, ahead⟩ := Contact.onset?_drift.1 comes
  have soon := near contact _ before held
  have atOnce : elapsed = 0 := by
    apply UInt64.toNat_inj.1
    change elapsed.toNat = 0
    have less : (elapsed.toNat : ℝ) < 1 := by linarith
    exact Nat.lt_one_iff.1 (by exact_mod_cast less)
  have agree := lull.agree
  rw [if_pos atOnce] at agree
  exact isOpen ((agree contact x comes).2 held)

/-- What is the earliest after a lull was so before. -/
theorem earliest (lull : Lull table settled elapsed kept) (near : Near table settled)
    (earliest : Earliest (table.drift elapsed) kept contact x) :
    Earliest table settled contact (x + elapsed.toNat) := by
  obtain ⟨comes, ahead⟩ := Contact.onset?_drift.1 earliest.comes
  refine ⟨comes, lull.open_of_drift near earliest.comes earliest.isOpen, ?_⟩
  intro other y comes' isOpen'
  obtain ⟨later, drifted, isOpen'⟩ := lull.remains comes' isOpen'
  have least := earliest.least other _ drifted isOpen'
  have whole : elapsed.toNat ≤ ⌊y⌋₊ := Nat.le_floor later
  rw [Nat.floor_sub_natCast] at least
  rw [Nat.floor_add_natCast ahead]
  rcases least with less | ⟨same, lower⟩
  · exact .inl (by omega)
  · exact .inr ⟨by omega, lower⟩

/-- If no more time passes than in a lull, the same is settled as if there had been none. -/
theorem agree_drift (lull : Lull table settled elapsed kept)
    (sum : (elapsed + delay).toNat = elapsed.toNat + delay.toNat) :
    Agree ((table.drift elapsed).drift delay) (if delay = 0 then kept else [])
      (if elapsed + delay = 0 then settled else []) := by
  by_cases atOnce : delay = 0
  · rw [if_pos atOnce, atOnce, Table.drift_zero, UInt64.add_zero]
    exact lull.agree
  · have notAtOnce : elapsed + delay ≠ 0 := by
      intro none
      have zero := congrArg UInt64.toNat none
      rw [sum] at zero
      change _ = 0 at zero
      exact atOnce (UInt64.toNat_inj.1 (Nat.add_eq_zero_iff.1 zero).2)
    rw [if_neg atOnce, if_neg notAtOnce]
    exact fun _ _ _ => Iff.rfl

end Lull

/-- Drifting on up to a horizon. -/
theorem Table.drift_drift_sub (clock : (now + elapsed).toNat = now.toNat + elapsed.toNat)
    (within : now.toNat + elapsed.toNat ≤ horizon.toNat) :
    (table.drift elapsed).drift (horizon - (now + elapsed)) = table.drift (horizon - now) := by
  have bound := horizon.toNat_lt
  have after : (horizon - (now + elapsed)).toNat = horizon.toNat - (now + elapsed).toNat :=
    UInt64.toNat_sub_of_le _ _ (UInt64.le_iff_toNat_le.2 (by omega))
  have whole : (horizon - now).toNat = horizon.toNat - now.toNat :=
    UInt64.toNat_sub_of_le _ _ (UInt64.le_iff_toNat_le.2 (by omega))
  have total : elapsed + (horizon - (now + elapsed)) = horizon - now := by
    apply UInt64.toNat_inj.1
    rw [UInt64.toNat_add]
    omega
  rw [Table.drift_drift (by rw [UInt64.size]; omega), total]

/-- A lull makes no difference: what unfolds afterwards has unfolded before. -/
theorem Unfolds.of_lull {kept : List Contact} {list : List (Instant × Contact)} {last : Table ℝ}
    (unfolds : Unfolds horizon (now + elapsed) (table.drift elapsed) kept list last)
    (within : now.toNat + elapsed.toNat ≤ horizon.toNat) (near : Near table settled)
    (lull : Lull table settled elapsed kept) : Unfolds horizon now table settled list last := by
  have bound := horizon.toNat_lt
  have clock : (now + elapsed).toNat = now.toNat + elapsed.toNat := by
    rw [UInt64.toNat_add]
    omega
  cases unfolds with
  | rests beyond =>
    rw [Table.drift_drift_sub clock within]
    refine .rests fun contact x comes isOpen => ?_
    obtain ⟨later, drifted, isOpen⟩ := lull.remains comes isOpen
    have far := beyond contact _ drifted isOpen
    rw [Nat.floor_sub_natCast] at far
    omega
  | @meets _ delay _ after _ _ contact x _ earliest floored within' met later =>
    rw [clock] at within'
    have sum : (elapsed + delay).toNat = elapsed.toNat + delay.toNat := by
      rw [UInt64.toNat_add]
      omega
    have floored' : (elapsed + delay).toNat = ⌊x + elapsed.toNat⌋₊ := by
      rw [Nat.floor_add_natCast (Contact.onset?_drift.1 earliest.comes).2]
      omega
    have reached : (table.drift elapsed).drift delay = table.drift (elapsed + delay) :=
      Table.drift_drift (by rw [UInt64.size]; omega)
    have agree := lull.agree_drift sum
    rw [reached] at met later agree
    rw [UInt64.add_assoc] at later ⊢
    exact .meets (lull.earliest near earliest) floored' (by omega) met
      (later.congr (agree.settledWith met))

end Billiard
