/-!
# `Sema.Text.Boundaries`: sets of code points as boundary lists

A set of code points is kept as the ascending list of the points at which membership changes: a
number is inside exactly when an odd number of boundaries are at or below it. Half as many numbers
as a list of ranges with both ends, and adjacent ranges cannot overlap by mistake.
-/

set_option autoImplicit false

namespace Sema.Text

/-- Whether `n` lies inside the set with these ascending boundaries. Each boundary at or below `n`
flips the answer; the first one above it ends the search. -/
def inside : List Nat → Nat → Bool
  | [], _ => false
  | b :: bs, n => if n < b then false else !inside bs n

end Sema.Text
