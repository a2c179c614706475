import Collapsing.Hydra.Outline

/-!
# Layouts of hydras

A layout is a hydra placed on a canvas.  It is built on any non-empty list of rows, whose depths
may jump or be negative; the layout of a term has the root above the term's rows.

Depths are shifted by one, so that the root has depth 0.  Node `i` has its centre in column `i`,
and deeper nodes stand higher up.  The parent of a node is the nearest earlier node that is
shallower.

## Main statements

- `length_depths`, `length_parents`: each node has one depth and one parent entry.
-/

namespace Collapsing

/-- A hydra to be drawn: its rows, of which there is at least one, and the measures of the
drawing. -/
structure Layout where
  first : Row
  others : List Row
  nodeSize : Float := 50
  nodeDistance : Float := 50

namespace Layout

/-! ## §1 Nodes -/

/-- The rows of a layout, in pre-order. -/
def rows (layout : Layout) : List Row := layout.first :: layout.others

/-- The number of nodes. -/
def nodeCount (layout : Layout) : Nat := layout.rows.length

/-- The depths of the nodes; the root of a term has depth 0. -/
def depths (layout : Layout) : List Int := layout.rows.map fun row => row.depth + 1

/-- The labels of the nodes. -/
def labels (layout : Layout) : List Int := layout.rows.map Row.label

/-- The greatest depth. -/
def maxDepth (layout : Layout) : Int := layout.depths.foldl max (layout.first.depth + 1)

@[simp] theorem length_depths (layout : Layout) : layout.depths.length = layout.nodeCount :=
  List.length_map ..

/-! ## §2 Edges -/

/-- The parents of the nodes with the given depths, which are numbered from `index`.
`earlier` holds the earlier nodes with their depths, the latest first. -/
def parentsFrom (earlier : List (Nat × Int)) (index : Nat) : List Int → List (Option Nat)
  | [] => []
  | depth :: depths =>
    (earlier.find? fun node => node.2 < depth).map Prod.fst ::
      parentsFrom ((index, depth) :: earlier) (index + 1) depths

/-- The parent of each node: the nearest earlier node that is shallower, if there is one. -/
def parents (layout : Layout) : List (Option Nat) := parentsFrom [] 0 layout.depths

/-- The pairs of a parent and its child, in the order of the children. -/
def edges (layout : Layout) : List (Nat × Nat) :=
  layout.parents.zipIdx.filterMap fun (parent, child) => parent.map (·, child)

theorem length_parentsFrom (earlier : List (Nat × Int)) (index : Nat) (depths : List Int) :
    (parentsFrom earlier index depths).length = depths.length := by
  induction depths generalizing earlier index with
  | nil => rfl
  | cons depth depths ih => rw [parentsFrom, List.length_cons, ih, List.length_cons]

@[simp] theorem length_parents (layout : Layout) : layout.parents.length = layout.nodeCount := by
  rw [parents, length_parentsFrom, length_depths]

/-! ## §3 Geometry -/

/-- The width of the canvas. -/
def width (layout : Layout) : Float := (0.5 + layout.nodeCount.toFloat) * layout.nodeDistance

/-- The height of the canvas. -/
def height (layout : Layout) : Float :=
  (0.5 + Float.ofInt layout.maxDepth) * layout.nodeDistance + 0.5 * layout.nodeDistance

/-- The centres of the nodes on the canvas. -/
def positions (layout : Layout) : List (Float × Float) :=
  layout.depths.zipIdx.map fun (depth, index) =>
    ((0.5 + index.toFloat) * layout.nodeDistance,
      (0.5 + Float.ofInt layout.maxDepth - Float.ofInt depth) * layout.nodeDistance)

/-! ## §4 Outline -/

/-- The outline of the hydra. -/
def outline (layout : Layout) : Text := Row.outline layout.others

/-! ## §5 Terms -/

/-- The layout of the hydra of a term, if it has one. -/
def ofTerm? (t : Term) (nodeSize nodeDistance : Float) : Option Layout :=
  t.rows?.map fun rows => ⟨.root, rows, nodeSize, nodeDistance⟩

end Layout

end Collapsing
