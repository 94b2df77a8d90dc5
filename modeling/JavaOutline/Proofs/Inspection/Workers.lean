import JavaOutline.Report.Basic
import Mathlib.Logic.Relation

/-!
Reports made by several workers at once. A worker takes any file that waits, and some time later
leaves its report in the slot of the file. Whichever files are taken and whoever is done first, the
reports that are there and those still to come are the same after each step.
-/
namespace JavaOutline.Inspection

open Report

inductive Slot where
  | waiting (path : String)
  | taken (path : String)
  | done (report : FileReport)

namespace Slot

section

variable (report : String → FileReport)

def outcome : Slot → FileReport
  | waiting path => report path
  | taken path => report path
  | done made => made

/-- One worker does one thing, in any slot. -/
inductive Step : List Slot → List Slot → Prop
  | take (front back : List Slot) (path : String) :
      Step (front ++ waiting path :: back) (front ++ taken path :: back)
  | leave (front back : List Slot) (path : String) :
      Step (front ++ taken path :: back) (front ++ done (report path) :: back)

def Run : List Slot → List Slot → Prop :=
  Relation.ReflTransGen (Step report)

end

variable {report : String → FileReport} {before after : List Slot}

end Slot

end JavaOutline.Inspection
