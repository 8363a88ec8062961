import Billiard.Journal

/-!
What scenes are drawn on. A drawing is a sequence of strokes: marks are collected, and shown
together when the frame is finished. Behind the strokes can be nothing at all, a recorder of the
last frame, or a caption for every frame.
-/

namespace Billiard

/-- Something that can be seen. -/
inductive Mark (K : Type) where
  | line (start finish : Vec K)
  | circle (centre : Vec K) (radius : K)
deriving BEq, Repr

namespace Mark

/-- Whether it is a line. -/
def isLine {K : Type} : Mark K → Bool
  | .line .. => true
  | .circle .. => false

end Mark

/-- One step of a drawing. -/
inductive Stroke (K : Type) where
  /-- Forget all marks that were not shown yet. -/
  | wipe
  | mark (mark : Mark K)
  /-- Show what was drawn since the last wipe. -/
  | present
deriving BEq, Repr

/-- Something to draw on. It may remark on what is drawn. -/
class Canvas (K : outParam Type) (C : Type) where
  draw : C → Stroke K → C × List (Remark K)

/-- Shows nothing and keeps nothing. -/
structure Blank (K : Type) where
deriving BEq, Repr

instance {K : Type} : Canvas K (Blank K) where
  draw blank _ := (blank, [])

/-- Keeps the marks of the last frame. -/
structure Recorder (K : Type) where
  drawn : List (Mark K)
  shown : List (Mark K)
  frames : Nat
deriving BEq, Repr

namespace Recorder

/-- Nothing is drawn yet. -/
def new {K : Type} : Recorder K := ⟨[], [], 0⟩

/-- A finished frame takes all marks with it. -/
def draw {K : Type} (recorder : Recorder K) : Stroke K → Recorder K
  | .wipe => { recorder with drawn := [] }
  | .mark mark => { recorder with drawn := recorder.drawn ++ [mark] }
  | .present => { drawn := [], shown := recorder.drawn, frames := recorder.frames + 1 }

instance {K : Type} : Canvas K (Recorder K) where
  draw recorder stroke := (recorder.draw stroke, [])

end Recorder

/-- Counts lines and keeps circles, and remarks on every frame. -/
structure Captioner (K : Type) where
  lines : Nat
  circles : List (Vec K × K)
  frames : Nat
deriving BEq, Repr

namespace Captioner

/-- Nothing is drawn yet. -/
def new {K : Type} : Captioner K := ⟨0, [], 0⟩

/-- Marks stay until they are wiped away. -/
def draw {K : Type} (captioner : Captioner K) : Stroke K → Captioner K
  | .wipe => { captioner with lines := 0, circles := [] }
  | .mark (.line ..) => { captioner with lines := captioner.lines + 1 }
  | .mark (.circle centre radius) =>
    { captioner with circles := captioner.circles ++ [(centre, radius)] }
  | .present => { captioner with frames := captioner.frames + 1 }

/-- What is said about a finished frame. -/
def caption {K : Type} (captioner : Captioner K) : Remark K :=
  .frame captioner.frames captioner.lines (captioner.circles.map (·.1))

instance {K : Type} : Canvas K (Captioner K) where
  draw captioner stroke :=
    let after := captioner.draw stroke
    (after, match stroke with | .present => [after.caption] | .wipe | .mark _ => [])

end Captioner

end Billiard
