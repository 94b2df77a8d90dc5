import JavaOutline.Proofs.Report.Encoding
import JavaOutline.Report.Pretty

/-!
The number of failures that printed reports tell. In JSON it stands under its name. Reports for
people end with it, or with a line that says there are none; the digits of that line can be told
from what is in front of them, so it shows one number only.
-/
namespace JavaOutline.Report

open JavaOutline.Json

theorem restyled_plain (start chars : List Char) (free : '\x1b' ∉ chars) :
    restyled start chars = chars := by
  induction chars with
  | nil => rfl
  | cons c rest ih =>
      obtain ⟨own, others⟩ := not_or.mp (List.mem_cons.not.mp free)
      rw [restyled.eq_def]
      split
      case h_1 rest same => exact absurd (List.cons.inj same).1.symm own
      case h_2 d chars _ same =>
          obtain ⟨rfl, rfl⟩ := List.cons.inj same
          rw [ih others]
      case h_3 same => cases same

end JavaOutline.Report
