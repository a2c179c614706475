import Collapsing.Hydra.Layout
import Collapsing.Proofs.Hydra.Drawable
import Collapsing.Proofs.Hydra.Tree

/-!
# Layouts draw trees

The layout of a term keeps nothing but a list of depths and labels, and looks for the parent of a node
among the earlier nodes: it is the nearest one that is shallower.  This finds the parent in the tree
of the term.  All the nodes between a node and its parent belong to the heads further left, so none of
them is shallower than the node, and the search passes over them.

## Main statements

- `parentsFrom_append`: the search in a list of depths that is cut in two;
- `parentsFrom_nodesFrom`: in the depths of a tree the search finds the parents of the tree;
- `rows_headsFrom`: the nodes of the tree of a term are its rows;
- `layout_draws_tree`: the layout of a term draws its tree.
-/

namespace Collapsing

/-! ## §1 The search for parents -/

namespace Layout

/-- Nodes with the given depths, numbered from `index`, the latest first. -/
def numbered (index : Nat) (depths : List Int) : List (Nat × Int) :=
  ((depths.zipIdx index).map Prod.swap).reverse

/-- Behind some nodes the search begins with these nodes. -/
theorem parentsFrom_append (earlier : List (Nat × Int)) (index : Nat) (depths depths' : List Int) :
    parentsFrom earlier index (depths ++ depths') = parentsFrom earlier index depths ++
      parentsFrom (numbered index depths ++ earlier) (index + depths.length) depths' := by
  induction depths generalizing earlier index with
  | nil => simp [numbered, parentsFrom]
  | cons depth depths ih =>
    have numbers : numbered index (depth :: depths) ++ earlier =
        numbered (index + 1) depths ++ (index, depth) :: earlier := by simp [numbered]
    have count : index + (depth :: depths).length = index + 1 + depths.length := by simp; omega
    rw [List.cons_append, parentsFrom, parentsFrom, ih, numbers, count, List.cons_append]

/-- The number of the nearest earlier node that is shallower than `depth`. -/
def nearest (earlier : List (Nat × Int)) (depth : Int) : Option Nat :=
  (earlier.find? fun node => node.2 < depth).map Prod.fst

theorem parentsFrom_cons (earlier : List (Nat × Int)) (index : Nat) (depth : Int)
    (depths : List Int) :
    parentsFrom earlier index (depth :: depths) =
      nearest earlier depth :: parentsFrom ((index, depth) :: earlier) (index + 1) depths := rfl

/-- A node that is shallower ends the search. -/
theorem nearest_cons (earlier : List (Nat × Int)) (index : Nat) {depth depth' : Int}
    (h : depth' < depth) : nearest ((index, depth') :: earlier) depth = some index := by
  simp [nearest, h]

/-- Nodes that are not shallower are passed over. -/
theorem nearest_numbered (earlier : List (Nat × Int)) (index : Nat) {depth : Int}
    {depths : List Int} (h : ∀ d ∈ depths, depth ≤ d) :
    nearest (numbered index depths ++ earlier) depth = nearest earlier depth := by
  have passed : (numbered index depths).find? (fun node => node.2 < depth) = none := by
    rw [List.find?_eq_none]
    intro node mem
    simp only [numbered, List.mem_reverse, List.mem_map] at mem
    obtain ⟨⟨d, i⟩, mem, rfl⟩ := mem
    simpa using h d (List.fst_mem_of_mem_zipIdx mem)
  rw [nearest, nearest, List.find?_append, passed, Option.none_or]

end Layout

/-! ## §2 The search in a tree -/

namespace Hydra

/-- The depth of a node as a layout keeps it. -/
def Node.level (node : Node) : Int := node.depth

open Layout (parentsFrom nearest)

mutual

/-- Where the search from the root finds the given parent, it finds the parents of the tree. -/
theorem parentsFrom_nodesFrom (hydra : Hydra) (earlier : List (Nat × Int)) (parent : Option Nat)
    (depth index : Nat) (h : nearest earlier depth = parent) :
    parentsFrom earlier index ((hydra.nodesFrom parent depth index).map Node.level) =
      (hydra.nodesFrom parent depth index).map Node.parent := by
  match hydra with
  | node label heads =>
    have below : nearest ((index, (depth : Int)) :: earlier) (depth + 1 : Nat) = some index :=
      Layout.nearest_cons earlier index (by omega)
    have inside := parentsFrom_headsFrom heads _ _ (depth + 1) (index + 1) below
    rw [nodesFrom, List.map_cons, List.map_cons, Layout.parentsFrom_cons]
    simp only [Node.level] at inside ⊢
    rw [h, inside]

theorem parentsFrom_headsFrom (heads : List Hydra) (earlier : List (Nat × Int))
    (parent : Option Nat) (depth index : Nat) (h : nearest earlier depth = parent) :
    parentsFrom earlier index ((headsFrom parent depth index heads).map Node.level) =
      (headsFrom parent depth index heads).map Node.parent := by
  match heads with
  | [] => rfl
  | head :: heads =>
    have first := parentsFrom_nodesFrom head earlier parent depth index h
    -- No node of the first tree is shallower than the roots of the others.
    have deep : ∀ d ∈ (head.nodesFrom parent depth index).map Node.level, (depth : Int) ≤ d := by
      intro d mem
      obtain ⟨node, node_mem, rfl⟩ := List.mem_map.1 mem
      exact Int.ofNat_le.2 (le_depth_nodesFrom head parent depth index node node_mem)
    have others := parentsFrom_headsFrom heads _ parent depth (index + head.size)
      ((Layout.nearest_numbered earlier index deep).trans h)
    rw [headsFrom, List.map_append, List.map_append, Layout.parentsFrom_append, first,
      List.length_map, length_nodesFrom, others]

end

/-! ## §3 Edges -/

/-- The edge to a child with the given number, if it has a parent. -/
def edgeTo (parent : Option Nat) (child : Nat) : Option (Nat × Nat) := parent.map (·, child)

mutual

/-- The edges of a tree are read off the parents of its nodes. -/
theorem edges_nodesFrom (hydra : Hydra) (parent : Option Nat) (depth index : Nat) :
    (((hydra.nodesFrom parent depth index).map Node.parent).zipIdx index).filterMap
        (fun (parent, child) => edgeTo parent child) =
      (edgeTo parent index).toList ++ hydra.edgesFrom index := by
  match hydra with
  | node label heads =>
    have inside := edges_headsFrom heads index (depth + 1) (index + 1)
    rw [nodesFrom, edgesFrom, List.map_cons, List.zipIdx_cons, ← inside]
    cases parent with
    | none => simp [edgeTo]
    | some p => simp [edgeTo]

theorem edges_headsFrom (heads : List Hydra) (p depth index : Nat) :
    (((headsFrom (some p) depth index heads).map Node.parent).zipIdx index).filterMap
        (fun (parent, child) => edgeTo parent child) = headEdgesFrom p index heads := by
  match heads with
  | [] => rfl
  | head :: heads =>
    have first := edges_nodesFrom head (some p) depth index
    have others := edges_headsFrom heads p depth (index + head.size)
    rw [headsFrom, headEdgesFrom, List.map_append, List.zipIdx_append, List.filterMap_append, first,
      List.length_map, length_nodesFrom, others]
    rfl

end

end Hydra

/-! ## §4 Rows -/

namespace Hydra

/-- The row of a node. -/
def Node.row (node : Node) : Row := ⟨node.depth, node.label⟩

end Hydra

/-- A term that can be drawn has a tree, and the nodes of the tree are its rows. -/
theorem Term.rows_headsFrom {t : Term} {rows : List Row} (h : t.rows? = some rows) :
    ∃ heads, t.heads? = some heads ∧ ∀ (parent : Option Nat) (depth index : Nat),
      (Hydra.headsFrom parent depth index heads).map Hydra.Node.row =
        rows.map fun row => ⟨row.depth + depth, row.label⟩ := by
  induction t generalizing rows with
  | zero =>
    cases h
    exact ⟨[], rfl, fun _ _ _ => rfl⟩
  | cons sub arg rest _ ih_arg ih_rest =>
    obtain ⟨n, below, others, rfl, h_arg, h_rest, rfl⟩ := rows?_cons_eq_some_iff.1 h
    obtain ⟨inner, eq_inner, inside⟩ := ih_arg h_arg
    obtain ⟨outer, eq_outer, beside⟩ := ih_rest h_rest
    refine ⟨.node n inner :: outer, by simp [heads?, eq_inner, eq_outer], ?_⟩
    intro parent depth index
    rw [Hydra.headsFrom, Hydra.nodesFrom, List.map_append, List.map_cons, inside, beside]
    simp [Hydra.Node.row, Row.deeper, Int.add_assoc, Int.add_comm 1]

/-! ## §5 Layouts -/

namespace Layout

/-- The rows of a layout are the nodes of a tree, whose root the layout keeps at depth `-1`. -/
def Shows (layout : Layout) (hydra : Hydra) : Prop :=
  layout.rows.map Row.deeper = hydra.nodes.map Hydra.Node.row

/-- The layout of a term shows its tree. -/
theorem exists_shows {t : Term} {rows : List Row} (h : t.rows? = some rows)
    (nodeSize nodeDistance : Float) :
    ∃ hydra layout, t.hydra? = some hydra ∧ ofTerm? t nodeSize nodeDistance = some layout ∧
      layout.Shows hydra := by
  obtain ⟨heads, eq_heads, rows_eq⟩ := t.rows_headsFrom h
  refine ⟨.node 0 heads, ⟨.root, rows, nodeSize, nodeDistance⟩, ?_, ?_, ?_⟩
  · simp [Term.hydra?, eq_heads]
  · simp [ofTerm?, h]
  · have above := rows_eq (some 0) 1 1
    simp only [Shows, Layout.rows, Hydra.nodes, Hydra.nodesFrom, List.map_cons, above]
    rfl

namespace Shows

variable {layout : Layout} {hydra : Hydra}

theorem depths_eq (h : layout.Shows hydra) : layout.depths = hydra.nodes.map Hydra.Node.level := by
  have depths := congrArg (List.map Row.depth) h
  simp only [List.map_map] at depths
  exact depths

theorem labels_eq (h : layout.Shows hydra) :
    layout.labels = hydra.nodes.map fun node => (node.label : Int) := by
  have labels := congrArg (List.map Row.label) h
  simp only [List.map_map] at labels
  exact labels

theorem nodeCount_eq (h : layout.Shows hydra) : layout.nodeCount = hydra.size := by
  rw [← hydra.length_nodes, ← length_depths, h.depths_eq, List.length_map]

theorem parents_eq (h : layout.Shows hydra) :
    layout.parents = hydra.nodes.map Hydra.Node.parent := by
  rw [parents, h.depths_eq]
  exact hydra.parentsFrom_nodesFrom [] none 0 0 rfl

theorem edges_eq (h : layout.Shows hydra) : layout.edges = hydra.edges := by
  rw [edges, h.parents_eq]
  exact hydra.edges_nodesFrom none 0 0

/-- A node that has a parent stands one level deeper than it. -/
theorem depth_eq_succ (h : layout.Shows hydra) {i p : Nat}
    (h_parent : layout.parents[i]? = some (some p)) :
    ∃ depth, layout.depths[p]? = some depth ∧ layout.depths[i]? = some (depth + 1) := by
  rw [h.parents_eq, List.getElem?_map, Option.map_eq_some_iff] at h_parent
  obtain ⟨node, h_node, eq⟩ := h_parent
  obtain ⟨above, h_above, deeper⟩ := Hydra.exists_parent (List.mem_of_getElem? h_node) eq
  refine ⟨above.level, ?_, ?_⟩
  · rw [h.depths_eq, List.getElem?_map, h_above, Option.map_some]
  · rw [h.depths_eq, List.getElem?_map, h_node, Option.map_some]
    simp [Hydra.Node.level, deeper]

end Shows

end Layout

/-- **Layouts draw trees**: if a term can be drawn, its tree has as many nodes as its layout, with the
same depths, labels and parents; each node that has a parent stands exactly one level deeper than it;
and the edges of the layout are those of the tree, which end in all the nodes but the root, in the
order of the nodes. -/
theorem layout_draws_tree {t : Term} {rows : List Row} (h : t.rows? = some rows)
    (nodeSize nodeDistance : Float) :
    ∃ hydra layout, t.hydra? = some hydra ∧
      Layout.ofTerm? t nodeSize nodeDistance = some layout ∧
      layout.nodeCount = hydra.size ∧
      layout.depths = hydra.nodes.map (fun node => (node.depth : Int)) ∧
      layout.labels = hydra.nodes.map (fun node => (node.label : Int)) ∧
      layout.parents = hydra.nodes.map Hydra.Node.parent ∧
      (∀ i p : Nat, layout.parents[i]? = some (some p) →
        ∃ depth, layout.depths[p]? = some depth ∧ layout.depths[i]? = some (depth + 1)) ∧
      layout.edges = hydra.edges ∧
      hydra.edges.map Prod.snd = List.range' 1 (hydra.size - 1) := by
  obtain ⟨hydra, layout, eq_hydra, eq_layout, shows⟩ := Layout.exists_shows h nodeSize nodeDistance
  exact ⟨hydra, layout, eq_hydra, eq_layout, shows.nodeCount_eq, shows.depths_eq, shows.labels_eq,
    shows.parents_eq, fun _ _ => shows.depth_eq_succ, shows.edges_eq, hydra.snd_edges⟩

/-- A head with two heads of its own, and another one beside it. -/
theorem layout_draws_tree_branching :
    (Term.psi .zero (.numeral 2) + .one).rows? = some [⟨0, 0⟩, ⟨1, 0⟩, ⟨1, 0⟩, ⟨0, 0⟩] ∧
    ∃ layout, Layout.ofTerm? (.psi .zero (.numeral 2) + .one) 50 50 = some layout ∧
      layout.nodeCount = 5 ∧ layout.depths = [0, 1, 2, 2, 1] ∧ layout.labels = [0, 0, 0, 0, 0] ∧
      layout.parents = [none, some 0, some 1, some 1, some 0] ∧
      layout.edges = [(0, 1), (1, 2), (1, 3), (0, 4)] := by
  refine ⟨rfl, ?_⟩
  obtain ⟨hydra, layout, eq_hydra, eq_layout, count, depths, labels, parents, _, edges, _⟩ :=
    layout_draws_tree (t := .psi .zero (.numeral 2) + .one) rfl 50 50
  have tree : Hydra.node 0 [.node 0 [.node 0 [], .node 0 []], .node 0 []] = hydra :=
    Option.some.inj eq_hydra
  subst tree
  exact ⟨layout, eq_layout, count, depths, labels, parents, edges⟩

end Collapsing
