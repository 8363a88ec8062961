import Mathlib.Data.List.DropRight
import Billiard.Proofs.Deliveries
import Billiard.Proofs.Turret

/-!
What canvases show of a drawing. A present is to show all that was marked since the last wipe, and a
captioner says just that. A recorder lets go of what it has shown: a frame that is presented again
without a wipe is missing what was on it before. So a recorder shows what it should, and what the
captioner speaks of, exactly where nothing is shown twice (`Canvas.presents_alike_iff`).
-/

namespace Billiard

variable {K C : Type}

/-- The place and size of a circle. -/
def Mark.circle? : Mark K → Option (Vec K × K)
  | .line .. => none
  | .circle centre radius => some (centre, radius)

namespace Stroke

/-- What the stroke marks, if it marks anything. -/
def mark? : Stroke K → Option (Mark K)
  | .mark shape => some shape
  | .wipe | .present => none

/-- Whether what was drawn is forgotten. -/
def isWipe : Stroke K → Bool
  | .wipe => true
  | .mark _ | .present => false

/-- Whether a frame is shown. -/
def isPresent : Stroke K → Bool
  | .present => true
  | .wipe | .mark _ => false

/-- The marks since the last stroke that ends a frame. -/
def marksSince (ends : Stroke K → Bool) (strokes : List (Stroke K)) : List (Mark K) :=
  (strokes.rtakeWhile (!ends ·)).filterMap mark?

/-- The marks since the last wipe: all that is to be shown. -/
def unwiped (strokes : List (Stroke K)) : List (Mark K) := marksSince isWipe strokes

/-- The marks since the last wipe that no frame has shown yet. -/
def unshown (strokes : List (Stroke K)) : List (Mark K) :=
  marksSince (fun stroke => stroke.isWipe || stroke.isPresent) strokes

/-- Nothing would be shown twice: whatever an earlier frame showed was wiped away. -/
def Fresh (strokes : List (Stroke K)) : Prop :=
  ∀ earlier later, strokes = earlier ++ .present :: later →
    (∀ stroke ∈ later, stroke.isWipe = false) → unwiped earlier = []

theorem marksSince_concat (ends : Stroke K → Bool) (strokes : List (Stroke K))
    (stroke : Stroke K) :
    marksSince ends (strokes ++ [stroke]) =
      if ends stroke then [] else marksSince ends strokes ++ stroke.mark?.toList := by
  unfold marksSince
  rw [List.rtakeWhile_concat]
  cases ends stroke with
  | true => rfl
  | false =>
    cases marked : stroke.mark? <;> simp [marked]

theorem fresh_concat (strokes : List (Stroke K)) (stroke : Stroke K) :
    Fresh (strokes ++ [stroke]) ↔
      stroke.isWipe ∨ Fresh strokes ∧ (stroke.isPresent → unwiped strokes = []) := by
  constructor
  · intro fresh
    by_cases wipes : stroke.isWipe = true
    · exact .inl wipes
    refine .inr ⟨?_, ?_⟩
    · rintro earlier later rfl kept
      refine fresh earlier (later ++ [stroke]) (by simp) ?_
      intro other member
      rcases List.mem_append.1 member with member | member
      · exact kept other member
      · rw [List.mem_singleton.1 member]
        exact Bool.not_eq_true _ ▸ wipes
    · intro presents
      obtain rfl : stroke = .present := by cases stroke <;> simp [isPresent] at presents ⊢
      exact fresh strokes [] rfl (List.forall_mem_nil _)
  · rintro cases earlier later split kept
    rcases eq_or_split_of_concat split with ⟨rfl, rfl, _⟩ | ⟨more, rfl, within⟩
    · rcases cases with wipes | ⟨_, empty⟩
      · cases wipes
      · exact empty rfl
    · have keeps := kept stroke (List.mem_append_right more (List.mem_singleton_self _))
      rcases cases with wipes | ⟨fresh, _⟩
      · rw [keeps] at wipes
        cases wipes
      · exact fresh earlier more within fun other member =>
          kept other (List.mem_append_left _ member)

/-- The marks to be shown are those that were shown before, and those that were not. -/
theorem exists_unwiped_eq (strokes : List (Stroke K)) :
    ∃ shown, unwiped strokes = shown ++ unshown strokes ∧ (shown = [] ↔ Fresh strokes) := by
  induction strokes using List.reverseRecOn with
  | nil => exact ⟨[], rfl, fun _ earlier later split => by simp at split, fun _ => rfl⟩
  | append_singleton strokes stroke ih =>
    obtain ⟨shown, split, fresh⟩ := ih
    simp only [fresh_concat, unwiped, unshown, marksSince_concat] at split ⊢
    cases stroke with
    | wipe => exact ⟨[], rfl, by simp [isWipe]⟩
    | mark mark =>
      refine ⟨shown, ?_, by simp [isWipe, isPresent, fresh]⟩
      simp only [isWipe, isPresent, Bool.or_self, Bool.false_eq_true, if_false, split,
        List.append_assoc]
    | present =>
      refine ⟨marksSince isWipe strokes, by simp [isWipe, isPresent, mark?], ?_⟩
      simp only [isWipe, isPresent, Bool.false_eq_true, false_or, true_imp_iff]
      refine ⟨fun none => ⟨fresh.1 ?_, none⟩, And.right⟩
      rw [split] at none
      exact (List.append_eq_nil_iff.1 none).1

end Stroke

open Stroke (unwiped unshown Fresh)

theorem Canvas.drawAll_concat [Canvas K C] (canvas : C) (strokes : List (Stroke K))
    (stroke : Stroke K) :
    drawAll canvas (strokes ++ [stroke]) = (draw (drawAll canvas strokes) stroke).1 := by
  simp [drawAll]

/-- A recorder has what no frame has shown yet, and counts frames. -/
theorem Recorder.drawAll_new (strokes : List (Stroke K)) :
    (Canvas.drawAll (.new : Recorder K) strokes).drawn = unshown strokes ∧
      (Canvas.drawAll (.new : Recorder K) strokes).frames = strokes.countP Stroke.isPresent := by
  induction strokes using List.reverseRecOn with
  | nil => exact ⟨rfl, rfl⟩
  | append_singleton strokes stroke ih =>
    obtain ⟨drawn, frames⟩ := ih
    rw [Canvas.drawAll_concat, unshown, Stroke.marksSince_concat, List.countP_append]
    cases stroke with
    | wipe => exact ⟨rfl, frames⟩
    | mark mark => exact ⟨congrArg (· ++ [mark]) drawn, frames⟩
    | present => exact ⟨rfl, congrArg (· + 1) frames⟩

/-- A captioner has counted the lines and kept the circles since the last wipe, and counts
frames. -/
theorem Captioner.drawAll_new (strokes : List (Stroke K)) :
    (Canvas.drawAll (.new : Captioner K) strokes).lines = (unwiped strokes).countP Mark.isLine ∧
      (Canvas.drawAll (.new : Captioner K) strokes).circles =
        (unwiped strokes).filterMap Mark.circle? ∧
      (Canvas.drawAll (.new : Captioner K) strokes).frames =
        strokes.countP Stroke.isPresent := by
  induction strokes using List.reverseRecOn with
  | nil => exact ⟨rfl, rfl, rfl⟩
  | append_singleton strokes stroke ih =>
    obtain ⟨lines, circles, frames⟩ := ih
    rw [Canvas.drawAll_concat, unwiped, Stroke.marksSince_concat, List.countP_append]
    cases stroke with
    | wipe => exact ⟨rfl, rfl, frames⟩
    | present =>
      simp only [Stroke.isWipe, Stroke.mark?, Bool.false_eq_true, if_false, Option.toList_none,
        List.append_nil]
      exact ⟨lines, circles, congrArg (· + 1) frames⟩
    | mark mark =>
      simp only [Stroke.isWipe, Stroke.mark?, Bool.false_eq_true, if_false, Option.toList_some,
        List.countP_append, List.filterMap_append]
      cases mark with
      | line start finish =>
        exact ⟨congrArg (· + 1) lines, circles.trans (List.append_nil _).symm, frames⟩
      | circle centre radius =>
        exact ⟨lines, congrArg (· ++ [(centre, radius)]) circles, frames⟩

/-- What is to be said about a frame of these marks. -/
def Remark.ofMarks (number : Nat) (marks : List (Mark K)) : Remark K :=
  .frame number (marks.countP Mark.isLine) ((marks.filterMap Mark.circle?).map (·.1))

/-- Every mark is spoken of, so marks of which there are more get another caption. -/
theorem Remark.ofMarks_append_inj {number : Nat} {more marks : List (Mark K)} :
    ofMarks number (more ++ marks) = ofMarks number marks ↔ more = [] := by
  refine ⟨fun same => ?_, fun none => by rw [none, List.nil_append]⟩
  simp only [ofMarks, Remark.frame.injEq, true_and, List.countP_append, List.filterMap_append,
    List.map_append] at same
  obtain ⟨lines, circles⟩ := same
  have noLine : more.countP Mark.isLine = 0 := by omega
  have noCircle : more.filterMap Mark.circle? = [] := by
    simpa using congrArg List.length circles
  rw [List.countP_eq_zero] at noLine
  rw [List.filterMap_eq_nil_iff] at noCircle
  refine List.eq_nil_iff_forall_not_mem.2 fun mark member => ?_
  cases mark with
  | line start finish => exact noLine _ member rfl
  | circle centre radius => cases noCircle _ member

namespace Canvas

/-- Two canvases that see the same strokes count the same frames. Of each frame the captioner tells
all that was marked since the last wipe; the recorder shows as much of it as no frame has shown
before. So the frame is what it should be, and what the captioner tells of, exactly if nothing of
it was shown before without being wiped away. -/
theorem presents_alike_iff (strokes : List (Stroke K)) :
    let presented := strokes ++ [.present]
    let recorder := drawAll (.new : Recorder K) presented
    let captioner := drawAll (.new : Captioner K) presented
    let remarks := (draw (drawAll (.new : Captioner K) strokes) .present).2
    let number := presented.countP Stroke.isPresent
    recorder.frames = number ∧ captioner.frames = number ∧
      remarks = [.ofMarks number (unwiped strokes)] ∧
      captioner.circles = (unwiped strokes).filterMap Mark.circle? ∧
      recorder.shown = unshown strokes ∧
      (recorder.shown = unwiped strokes ↔ Fresh strokes) ∧
      (remarks = [.ofMarks number recorder.shown] ↔ Fresh strokes) := by
  intro presented recorder captioner remarks number
  obtain ⟨shown, split, fresh⟩ := Stroke.exists_unwiped_eq strokes
  obtain ⟨drawn, _⟩ := Recorder.drawAll_new strokes
  obtain ⟨lines, circles, frames⟩ := Captioner.drawAll_new strokes
  have counted : number = strokes.countP Stroke.isPresent + 1 := by
    simp [number, presented, Stroke.isPresent]
  have shows : recorder.shown = unshown strokes := by
    simp only [recorder, presented, drawAll_concat]
    exact drawn
  have tells : remarks = [.ofMarks number (unwiped strokes)] := by
    rw [counted, Remark.ofMarks, ← frames, ← lines, ← circles]
    rfl
  have keeps : captioner.circles = (unwiped strokes).filterMap Mark.circle? := by
    simp only [captioner, presented, drawAll_concat]
    exact circles
  refine ⟨(Recorder.drawAll_new presented).2, (Captioner.drawAll_new presented).2.2, tells, keeps,
    shows, ?_, ?_⟩
  · rw [shows, split, ← fresh]
    exact ⟨fun same => List.self_eq_append_left.1 same, fun none => by rw [none, List.nil_append]⟩
  · rw [tells, shows, split, List.singleton_inj, Remark.ofMarks_append_inj, fresh]

/-- A circle is drawn and presented twice: the second frame of the recorder is empty, although the
circle was not wiped away and the captioner tells of it again. -/
theorem frame_lost :
    let strokes : List (Stroke Float) := [.wipe, .mark (.circle ⟨5.0, 5.0⟩ 2.0), .present]
    unwiped strokes = [.circle ⟨5.0, 5.0⟩ 2.0] ∧
      (drawAll (.new : Recorder Float) (strokes ++ [.present])).shown = [] ∧
      (draw (drawAll (.new : Captioner Float) strokes) .present).2 =
        [.frame 2 0 [⟨5.0, 5.0⟩]] :=
  ⟨rfl, rfl, rfl⟩

end Canvas

end Billiard
