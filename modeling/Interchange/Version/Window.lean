import Interchange.Calendar.DateTime

/-!
# Windows of validity

A `Window` is the half-open period from one moment up to another, and a missing bound leaves
that side open. Nothing asks for the bounds to be in order: a window whose end is not after
its start holds no moment. An entity without any windows is always valid.
-/

namespace Interchange

/-- The period from `opens` up to, and without, `closes`. -/
structure Window where
  opens : Option DateTime := none
  closes : Option DateTime := none
deriving DecidableEq

namespace Window

/-- The window that is always open. -/
def unbounded : Window := {}

/-- Whether the window has closed at a moment. -/
def hasEnded (w : Window) (t : DateTime) : Bool :=
  match w.closes with
  | some closes => closes ≤ t
  | none => false

/-- Whether the window has opened at a moment. -/
def hasStarted (w : Window) (t : DateTime) : Bool :=
  match w.opens with
  | some opens => opens ≤ t
  | none => true

/-- Whether a moment lies in the window. -/
def contains (w : Window) (t : DateTime) : Bool := w.hasStarted t && !w.hasEnded t

end Window

/-- Whether something with these windows is valid at a moment. -/
def isValidAt (windows : List Window) (t : DateTime) : Bool :=
  windows.isEmpty || windows.any (·.contains t)

/-- Goes through the windows with the earliest start met so far: an ended window is passed
over, one that is open now settles the answer, and a start to come may be the earliest. -/
def firstValidFrom (t : DateTime) (first : Option DateTime) : List Window → DateTime
  | [] => first.getD t
  | w :: ws =>
    if w.hasEnded t then firstValidFrom t first ws
    else match w.opens with
      | none => t
      | some opens =>
        if t < opens then
          match first with
          | some f => firstValidFrom t (if opens < f then some opens else some f) ws
          | none => firstValidFrom t (some opens) ws
        else t

/-- The moment, not before `t`, at which the windows come into effect; it is `t` itself if
they are in effect then, or if there are none or all of them have ended. -/
def firstValidMoment (windows : List Window) (t : DateTime) : DateTime :=
  firstValidFrom t none windows

end Interchange
