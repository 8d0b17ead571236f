/-!
Sets of code points, given as a list of closed ranges.
-/
namespace CallCompiler.Text

abbrev Ranges := List (Nat × Nat)

def Ranges.holds (table : Ranges) (n : Nat) : Bool :=
  table.any fun (lo, hi) => lo ≤ n && n ≤ hi

end CallCompiler.Text
