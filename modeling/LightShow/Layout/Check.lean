import LightShow.Fault
import LightShow.Layout.Basic
import LightShow.Text.Blank

namespace LightShow

/-!
# Usable layouts

* `Segment.fault?`, `Layout.fault?` — the first thing that is wrong with a segment and a layout;
* `Layout.check`, `Layout.ofSegments` — layouts without faults.
-/

/-- Whether the rule holds no infinity and no NaN. -/
def Across.isFinite : Across → Bool
  | .fixed x => x.isFinite
  | .ramp start delta => start.isFinite && delta.isFinite

@[inherit_doc Across.isFinite] def Upright.isFinite : Upright → Bool
  | .offset _ distance => distance.isFinite
  | _ => true

/-- What is wrong with a segment after one that ends at `previous`. -/
def Segment.fault? (previous : Option UInt16) (s : Segment) : Option Fault :=
  if isAllBlank s.part.toList then some .blankPart
  else
    match previous.filter (s.last ≤ ·) with
    | some p => some (.unordered s.part p)
    | none => if s.x.isFinite && s.y.isFinite then none else some (.nonFinite s.part)

namespace Layout

/-- The first fault of these segments after one that ends at `previous`. -/
def faultFrom? (previous : Option UInt16) : List Segment → Option Fault
  | [] => none
  | s :: rest => (s.fault? previous).or (faultFrom? (some s.last) rest)

/-- The first fault of a layout: it has no segments, or one without a name, one that does not end
    after the one before it, or one with a coordinate that is not finite. -/
def fault? (layout : Layout) : Option Fault :=
  if layout.segments.isEmpty then some .noSegments else faultFrom? none layout.segments

/-- The layout itself, if it has no fault. -/
def check (layout : Layout) : Except ShowError Layout :=
  match layout.fault? with
  | none => .ok layout
  | some fault => .error (.invalid fault)

/-- The layout of these segments, if it has no fault. -/
def ofSegments (segments : List Segment) : Except ShowError Layout := check ⟨segments⟩

end Layout

end LightShow
