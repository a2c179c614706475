import Collapsing.Hydra.Row
import Collapsing.Text.Basic

/-!
# Outlines of hydras

The outline of a hydra is a text with one line for each node.  The first line is a star, for
the root; every other line is the label of a node, indented by two spaces for each level
below the root.
-/

namespace Collapsing.Row

/-- The line of a node. -/
def line (row : Row) : Text :=
  List.replicate (2 * (row.depth + 1).toNat) ' ' ++ Text.integer row.label

/-- The outline of a hydra, given the rows below its root. -/
def outline (rows : List Row) : Text := '*' :: rows.flatMap fun row => '\n' :: row.line

end Collapsing.Row
