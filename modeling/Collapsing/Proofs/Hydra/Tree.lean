import Collapsing.Hydra.Row

/-!
# The tree of a hydra

The hydra of a term as a tree: below the root hangs one head for each addend of the term, and a head
carries the value of the subscript of its addend and, in turn, one head for each addend of the
argument.

The nodes of a tree are numbered in pre-order from the root, which has the number 0.  Each node is
listed with the number of its parent, its depth and its label; the parent is handed down the tree, so
nothing has to be searched for.

## Main statements

- `length_nodes`: a tree is listed with all its nodes;
- `exists_parent`: a node stands exactly one level deeper than its parent;
- `snd_edges`: each node but the root ends one edge.
-/

namespace Collapsing

/-- A tree whose nodes carry numbers.  The heads of a node stand from left to right. -/
inductive Hydra where
  | node (label : Nat) (heads : List Hydra)
  deriving Repr

namespace Hydra

/-! ## §1 Numbered nodes -/

/-- A node as it is listed: the number of its parent, its depth and its label. -/
structure Node where
  parent : Option Nat
  depth : Nat
  label : Nat
  deriving DecidableEq, Repr

mutual

/-- The number of nodes of a tree. -/
def size : Hydra → Nat
  | node _ heads => headsSize heads + 1

/-- The number of nodes of some trees together. -/
def headsSize : List Hydra → Nat
  | [] => 0
  | head :: heads => head.size + headsSize heads

end

mutual

/-- The nodes of a tree in pre-order, numbered from `index`, below a given parent. -/
def nodesFrom (parent : Option Nat) (depth index : Nat) : Hydra → List Node
  | node label heads => ⟨parent, depth, label⟩ :: headsFrom (some index) (depth + 1) (index + 1) heads

/-- The nodes of some trees with the same parent, numbered from `index`. -/
def headsFrom (parent : Option Nat) (depth index : Nat) : List Hydra → List Node
  | [] => []
  | head :: heads =>
    head.nodesFrom parent depth index ++ headsFrom parent depth (index + head.size) heads

end

mutual

/-- The pairs of a parent and its child in a tree whose root has the number `index`. -/
def edgesFrom (index : Nat) : Hydra → List (Nat × Nat)
  | node _ heads => headEdgesFrom index (index + 1) heads

/-- The same for some trees, which hang on the node `parent` and are numbered from `index`. -/
def headEdgesFrom (parent index : Nat) : List Hydra → List (Nat × Nat)
  | [] => []
  | head :: heads =>
    (parent, index) :: (head.edgesFrom index ++ headEdgesFrom parent (index + head.size) heads)

end

/-- The nodes of a tree in pre-order. -/
def nodes (hydra : Hydra) : List Node := hydra.nodesFrom none 0 0

/-- The pairs of a parent and its child, in the order of the children. -/
def edges (hydra : Hydra) : List (Nat × Nat) := hydra.edgesFrom 0

/-! ## §2 Counting -/

mutual

theorem length_nodesFrom (hydra : Hydra) (parent : Option Nat) (depth index : Nat) :
    (hydra.nodesFrom parent depth index).length = hydra.size := by
  match hydra with
  | node label heads =>
    rw [nodesFrom, size, List.length_cons, length_headsFrom heads]

theorem length_headsFrom (heads : List Hydra) (parent : Option Nat) (depth index : Nat) :
    (headsFrom parent depth index heads).length = headsSize heads := by
  match heads with
  | [] => rfl
  | head :: heads =>
    rw [headsFrom, headsSize, List.length_append, length_nodesFrom head, length_headsFrom heads]

end

/-- All nodes of a tree are listed. -/
theorem length_nodes (hydra : Hydra) : hydra.nodes.length = hydra.size :=
  length_nodesFrom hydra none 0 0

mutual

theorem snd_edgesFrom (hydra : Hydra) (index : Nat) :
    (hydra.edgesFrom index).map Prod.snd = List.range' (index + 1) (hydra.size - 1) := by
  match hydra with
  | node label heads => rw [edgesFrom, size, snd_headEdgesFrom heads, Nat.add_sub_cancel]

theorem snd_headEdgesFrom (heads : List Hydra) (parent index : Nat) :
    (headEdgesFrom parent index heads).map Prod.snd = List.range' index (headsSize heads) := by
  match heads with
  | [] => rfl
  | node label below :: heads =>
    have inside := snd_edgesFrom (node label below) index
    have beside := snd_headEdgesFrom heads parent (index + (node label below).size)
    rw [headEdgesFrom, headsSize, List.map_cons, List.map_append, inside, beside, size,
      Nat.add_sub_cancel, Nat.add_right_comm, List.range'_succ, ← List.range'_append_1,
      Nat.add_right_comm]
    simp only [Nat.add_assoc]

end

/-- Each node but the root is the child of one edge, in the order of the nodes. -/
theorem snd_edges (hydra : Hydra) :
    hydra.edges.map Prod.snd = List.range' 1 (hydra.size - 1) :=
  snd_edgesFrom hydra 0

/-! ## §3 Depths -/

mutual

theorem le_depth_nodesFrom (hydra : Hydra) (parent : Option Nat) (depth index : Nat) :
    ∀ node ∈ hydra.nodesFrom parent depth index, depth ≤ node.depth := by
  match hydra with
  | node label heads =>
    intro node h
    rcases List.mem_cons.1 h with rfl | h
    · exact Nat.le_refl depth
    · exact Nat.le_of_succ_le (le_depth_headsFrom heads (some index) (depth + 1) (index + 1) node h)

theorem le_depth_headsFrom (heads : List Hydra) (parent : Option Nat) (depth index : Nat) :
    ∀ node ∈ headsFrom parent depth index heads, depth ≤ node.depth := by
  match heads with
  | [] => simp [headsFrom]
  | head :: heads =>
    intro node h
    rcases List.mem_append.1 h with h | h
    · exact le_depth_nodesFrom head parent depth index node h
    · exact le_depth_headsFrom heads parent depth (index + head.size) node h

end

/-- Among all the nodes, the node stands exactly one level deeper than its parent. -/
def Node.Hangs (all : List Node) (node : Node) : Prop :=
  ∃ p above, node.parent = some p ∧ all[p]? = some above ∧ node.depth = above.depth + 1

mutual

theorem nodesFrom_hang (hydra : Hydra) (parent : Option Nat) (depth : Nat)
    (all before behind : List Node)
    (h : all = before ++ hydra.nodesFrom parent depth before.length ++ behind) :
    ∀ node ∈ (hydra.nodesFrom parent depth before.length).tail, node.Hangs all := by
  match hydra with
  | node label heads =>
    let root : Node := ⟨parent, depth, label⟩
    have root_mem : all[before.length]? = some root := by simp [h, nodesFrom, root]
    have split : all = (before ++ [root]) ++
        headsFrom (some before.length) (depth + 1) (before ++ [root]).length heads ++ behind := by
      simp [h, nodesFrom, root]
    have hang := headsFrom_hang heads root before.length depth all (before ++ [root]) behind split
      root_mem rfl
    simpa [nodesFrom] using hang

theorem headsFrom_hang (heads : List Hydra) (above : Node) (p depth : Nat)
    (all before behind : List Node)
    (h : all = before ++ headsFrom (some p) (depth + 1) before.length heads ++ behind)
    (h_above : all[p]? = some above) (h_depth : above.depth = depth) :
    ∀ node ∈ headsFrom (some p) (depth + 1) before.length heads, node.Hangs all := by
  match heads with
  | [] => simp [headsFrom]
  | node label below :: heads =>
    let first := (node label below).nodesFrom (some p) (depth + 1) before.length
    have first_length : first.length = (node label below).size := length_nodesFrom ..
    have inside := nodesFrom_hang (node label below) (some p) (depth + 1) all before
      (headsFrom (some p) (depth + 1) (before.length + (node label below).size) heads ++ behind)
      (by simp [h, headsFrom])
    have beside := headsFrom_hang heads above p depth all (before ++ first) behind
      (by simp [h, headsFrom, first, first_length]) h_above h_depth
    intro head h_head
    rw [headsFrom, List.mem_append, nodesFrom, List.mem_cons] at h_head
    rcases h_head with (rfl | h_head) | h_head
    · exact ⟨p, above, rfl, h_above, by rw [h_depth]⟩
    · exact inside head (by simpa [nodesFrom] using h_head)
    · exact beside head (by simpa [first_length] using h_head)

end

/-- A node that has a parent stands exactly one level deeper than it. -/
theorem exists_parent {hydra : Hydra} {node : Node} {p : Nat} (mem : node ∈ hydra.nodes)
    (h : node.parent = some p) :
    ∃ above, hydra.nodes[p]? = some above ∧ node.depth = above.depth + 1 := by
  match hydra with
  | .node label heads =>
    rcases List.mem_cons.1 mem with rfl | mem
    · -- The root has no parent.
      cases h
    · obtain ⟨q, above, eq, h_above, deeper⟩ :=
        nodesFrom_hang (.node label heads) none 0 _ [] [] (List.append_nil _).symm node mem
      cases eq.symm.trans h
      exact ⟨above, h_above, deeper⟩

end Hydra

namespace Term

/-! ## §4 The tree of a term -/

/-- The trees of the addends of a term, if it can be drawn: the tree of `亞(n, b)` carries `n`, and
the trees of the addends of `b` are its heads. -/
def heads? : Term → Option (List Hydra)
  | zero => some []
  | cons sub arg rest => do
    let label ← sub.numeralValue?
    let heads ← heads? arg
    let others ← heads? rest
    return .node label heads :: others

/-- The tree of a term, if it can be drawn: the trees of its addends on a root with the label 0. -/
def hydra? (t : Term) : Option Hydra := t.heads?.map (Hydra.node 0)

end Term

end Collapsing
