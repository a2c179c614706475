import Collapsing.Proofs.Hydra.Drawing
import Mathlib.Data.List.Induction
import Mathlib.Data.Nat.SuccPred

/-!
# Layouts of arbitrary rows

A layout may be built on rows that belong to no term.  Depths then jump, repeat or are negative, so
several nodes may be without a parent, and a node may stand any number of levels above its parent.

The search for parents does not depend on where the rows come from: the parent of a node is the last
of the earlier nodes that are shallower, if there is one.  So there is at most one edge to each node,
and it comes from an earlier node: the edges form a forest.  Drawn as arcs over a line they do not
cross either.  Suppose that `q` lies between a node `i` and its parent, and `i` between a node `j` and
its parent.  Then `q` is not shallower than `i`, and `i` is not shallower than `j`; so `q` is not
shallower than `j`, and is not its parent.

## Main statements

- `nearest_eq_some_iff`: what the search finds in front of a node;
- `parents_eq_some_iff`, `parents_eq_none_iff`: the parent of a node, if it has one;
- `mem_edges_iff`, `edges_pairwise`: the edges are the pairs of a node and its parent, each once;
- `edges_noncrossing_forest`: the edges of any layout form a forest without crossings.
-/

namespace Collapsing.Layout

/-! ## §1 The search from the right -/

/-- The places in a list of depths that are shallower than `depth`. -/
def placesBelow (depths : List Int) (depth : Int) : Set Nat :=
  {j | ∃ d, depths[j]? = some d ∧ d < depth}

/-- The last node is looked at first. -/
theorem nearest_numbered_concat (depths : List Int) (d depth : Int) :
    nearest (numbered 0 (depths ++ [d])) depth =
      if d < depth then some depths.length else nearest (numbered 0 depths) depth := by
  have numbers : numbered 0 (depths ++ [d]) = (depths.length, d) :: numbered 0 depths := by
    simp [numbered, List.zipIdx_append]
  rw [numbers]
  split
  case isTrue shallower => exact nearest_cons _ _ shallower
  case isFalse not_shallower => simp [nearest, not_shallower]

theorem placesBelow_concat_of_not_lt {depths : List Int} {d depth : Int} (h : ¬ d < depth) :
    placesBelow (depths ++ [d]) depth = placesBelow depths depth := by
  ext j
  simp only [placesBelow, Set.mem_ofPred_eq]
  rcases lt_trichotomy j depths.length with front | rfl | behind
  · rw [List.getElem?_append_left front]
  · -- This is the last place, which is not shallower.
    simp [h]
  · have outside : (depths ++ [d]).length ≤ j := by simpa using Nat.succ_le_of_lt behind
    rw [List.getElem?_eq_none outside, List.getElem?_eq_none (Nat.le_of_lt behind)]

theorem isGreatest_concat_of_lt (depths : List Int) {d depth : Int} (h : d < depth) :
    IsGreatest (placesBelow (depths ++ [d]) depth) depths.length := by
  constructor
  · exact ⟨d, by simp, h⟩
  · rintro j ⟨_, found, _⟩
    have inside := (List.getElem?_eq_some_iff.1 found).1
    rw [List.length_append, List.length_singleton] at inside
    exact Nat.le_of_lt_succ inside

/-- **The nearest shallower node** is the last one of the shallower nodes. -/
theorem nearest_eq_some_iff {depths : List Int} {depth : Int} {p : Nat} :
    nearest (numbered 0 depths) depth = some p ↔ IsGreatest (placesBelow depths depth) p := by
  -- A node that is appended is looked at first, so the induction goes from the right end.
  induction depths using List.reverseRecOn with
  | nil => simp [nearest, numbered, placesBelow, IsGreatest]
  | append_singleton depths d ih =>
    rw [nearest_numbered_concat]
    split
    case isTrue shallower =>
      have greatest := isGreatest_concat_of_lt depths shallower
      constructor
      · rintro ⟨⟩
        exact greatest
      · intro other
        rw [greatest.unique other]
    case isFalse not_shallower => rw [ih, placesBelow_concat_of_not_lt not_shallower]

/-! ## §2 Parents -/

/-- Each node is searched for among the nodes in front of it. -/
theorem getElem?_parentsFrom (depths : List Int) (i : Nat) :
    (parentsFrom [] 0 depths)[i]? =
      depths[i]?.map fun depth => nearest (numbered 0 (depths.take i)) depth := by
  by_cases h : i < depths.length
  · -- The list is cut in front of the node.
    have cut : depths = depths.take i ++ depths[i] :: depths.drop (i + 1) := by simp
    have front : (parentsFrom [] 0 (depths.take i)).length = i := by
      rw [length_parentsFrom, List.length_take_of_le (Nat.le_of_lt h)]
    have search : (parentsFrom [] 0 depths)[i]? =
        some (nearest (numbered 0 (depths.take i)) depths[i]) := by
      conv_lhs => rw [cut, parentsFrom_append, parentsFrom_cons]
      rw [List.getElem?_append_right (Nat.le_of_eq front), front]
      simp
    rw [search, List.getElem?_eq_getElem h, Option.map_some]
  · have outside := Nat.le_of_not_lt h
    rw [List.getElem?_eq_none outside, List.getElem?_eq_none (by rwa [length_parentsFrom])]
    rfl

variable {layout : Layout} {i j p q : Nat}

/-- The earlier nodes that are shallower than node `i`. -/
def shallower (layout : Layout) (i : Nat) : Set Nat :=
  {j | j < i ∧ ∃ d e, layout.depths[j]? = some d ∧ layout.depths[i]? = some e ∧ d < e}

theorem shallower_eq {depth : Int} (h : layout.depths[i]? = some depth) :
    layout.shallower i = placesBelow (layout.depths.take i) depth := by
  ext j
  simp only [shallower, placesBelow, Set.mem_ofPred_eq, h, Option.some.injEq]
  constructor
  · rintro ⟨earlier, d, _, found, rfl, lt⟩
    exact ⟨d, by rwa [List.getElem?_take_of_lt earlier], lt⟩
  · rintro ⟨d, found, lt⟩
    have earlier : j < i := by
      have inside := (List.getElem?_eq_some_iff.1 found).1
      exact lt_of_lt_of_le inside (List.length_take_le _ _)
    rw [List.getElem?_take_of_lt earlier] at found
    exact ⟨earlier, d, depth, found, rfl, lt⟩

theorem shallower_of_not_lt (h : ¬ i < layout.nodeCount) : layout.shallower i = ∅ := by
  ext j
  have missing : layout.depths[i]? = none := by simpa using h
  simp [shallower, missing]

theorem getElem?_parents {depth : Int} (h : layout.depths[i]? = some depth) :
    layout.parents[i]? = some (nearest (numbered 0 (layout.depths.take i)) depth) := by
  rw [parents, getElem?_parentsFrom, h, Option.map_some]

/-- The parent of a node is the greatest earlier node that is shallower. -/
theorem parents_eq_some_iff :
    layout.parents[i]? = some (some p) ↔ IsGreatest (layout.shallower i) p := by
  by_cases h : i < layout.nodeCount
  · have found := List.getElem?_eq_getElem (by rwa [length_depths] : i < layout.depths.length)
    rw [getElem?_parents found, shallower_eq found, Option.some.injEq, nearest_eq_some_iff]
  · rw [shallower_of_not_lt h, List.getElem?_eq_none (by simpa using h)]
    simp [IsGreatest]

/-- A node has no parent exactly if no earlier node is shallower. -/
theorem parents_eq_none_iff :
    layout.parents[i]? = some none ↔ i < layout.nodeCount ∧ layout.shallower i = ∅ := by
  constructor
  · intro rootless
    have inside : i < layout.nodeCount := by
      rw [← length_parents]
      exact (List.getElem?_eq_some_iff.1 rootless).1
    refine ⟨inside, ?_⟩
    -- Among finitely many shallower nodes there would be a greatest one, and so a parent.
    by_contra nonempty
    have bounded : BddAbove (layout.shallower i) := ⟨i, fun _ found => Nat.le_of_lt found.1⟩
    obtain ⟨p, greatest⟩ :=
      bounded.exists_isGreatest_of_nonempty (Set.nonempty_iff_ne_empty.2 nonempty)
    cases rootless.symm.trans (parents_eq_some_iff.2 greatest)
  · rintro ⟨inside, empty⟩
    obtain ⟨parent, entry⟩ : ∃ parent, layout.parents[i]? = some parent :=
      ⟨_, List.getElem?_eq_getElem (by rwa [length_parents])⟩
    cases parent with
    | none => exact entry
    | some p =>
      have found := (parents_eq_some_iff.1 entry).1
      rw [empty] at found
      exact absurd found (Set.notMem_empty p)

/-! ## §3 Edges -/

/-- The edges are the pairs of a parent and its child. -/
theorem mem_edges_iff : (p, i) ∈ layout.edges ↔ layout.parents[i]? = some (some p) := by
  simp [edges, List.mem_zipIdx_iff_getElem?]

/-- A parent stands in front of its child. -/
theorem lt_of_mem_edges (h : (p, i) ∈ layout.edges) : p < i :=
  (parents_eq_some_iff.1 (mem_edges_iff.1 h)).1.1

/-- The edges stand in the order of their children, so no two of them end in the same node. -/
theorem edges_pairwise (layout : Layout) :
    layout.edges.Pairwise fun edge edge' => edge.2 < edge'.2 := by
  have numbers : layout.parents.zipIdx.Pairwise fun entry entry' => entry.2 < entry'.2 := by
    rw [← List.pairwise_map, List.zipIdx_map_snd]
    exact List.pairwise_lt_range'
  apply numbers.filterMap
  rintro ⟨_, i⟩ ⟨_, j⟩ lt edge h_edge edge' h_edge'
  -- An edge ends in the node whose entry it is read off.
  obtain ⟨_, _, rfl⟩ := Option.map_eq_some_iff.1 h_edge
  obtain ⟨_, _, rfl⟩ := Option.map_eq_some_iff.1 h_edge'
  exact lt

/-- Between a node and its parent no node is shallower than the node. -/
theorem depth_le_of_between {d e : Int} (h : IsGreatest (layout.shallower i) p) (left : p < j)
    (right : j < i) (hd : layout.depths[j]? = some d) (he : layout.depths[i]? = some e) : e ≤ d := by
  by_contra lt
  have found : j ∈ layout.shallower i := ⟨right, d, e, hd, he, not_le.1 lt⟩
  exact absurd (h.2 found) (Nat.not_le.2 left)

/-- Two edges do not cross. -/
theorem not_crossing (hp : IsGreatest (layout.shallower i) p)
    (hq : IsGreatest (layout.shallower j) q) : ¬ (p < q ∧ q < i ∧ i < j) := by
  rintro ⟨pq, qi, ij⟩
  obtain ⟨_, _, depth_i, _, hi, _⟩ := hp.1
  obtain ⟨_, depth_q, depth_j, h_depth_q, hj, deeper⟩ := hq.1
  have first : depth_i ≤ depth_q := depth_le_of_between hp pq qi h_depth_q hi
  have second : depth_j ≤ depth_i := depth_le_of_between hq qi ij hi hj
  exact absurd (second.trans first) (not_le.2 deeper)

/-- **Layouts draw forests without crossings**, whatever rows they are built on: the parent of a
node is the greatest earlier node that is shallower, and a node has none exactly if no earlier node
is shallower; the edges are the pairs of a parent and its child, they come from earlier nodes, and no
two of them end in the same node; and there are no edges from `p` to `i` and from `q` to `j` with
`p < q < i < j`. -/
theorem edges_noncrossing_forest (layout : Layout) :
    layout.parents.length = layout.nodeCount ∧
    (∀ i p, layout.parents[i]? = some (some p) ↔ IsGreatest (layout.shallower i) p) ∧
    (∀ i, layout.parents[i]? = some none ↔ i < layout.nodeCount ∧ layout.shallower i = ∅) ∧
    (∀ p i, (p, i) ∈ layout.edges ↔ layout.parents[i]? = some (some p)) ∧
    (∀ p i, (p, i) ∈ layout.edges → p < i) ∧
    (layout.edges.map Prod.snd).Nodup ∧
    ∀ p i q j, (p, i) ∈ layout.edges → (q, j) ∈ layout.edges → ¬ (p < q ∧ q < i ∧ i < j) := by
  refine ⟨length_parents layout, fun _ _ => parents_eq_some_iff, fun _ => parents_eq_none_iff,
    fun _ _ => mem_edges_iff, fun _ _ => lt_of_mem_edges, ?_, ?_⟩
  · have ascending : (layout.edges.map Prod.snd).Pairwise (· < ·) :=
      List.pairwise_map.2 layout.edges_pairwise
    exact ascending.imp Nat.ne_of_lt
  · intro p i q j hp hq
    rw [mem_edges_iff, parents_eq_some_iff] at hp hq
    exact not_crossing hp hq

/-- Depths that jump and a negative one: two edges of which one lies under the other, and a second
node without a parent. -/
theorem edges_noncrossing_forest_jumping :
    ∃ layout : Layout, layout.depths = [1, 4, 6, 4, 2, -1, 3] ∧
      IsGreatest (layout.shallower 4) 0 ∧ layout.shallower 5 = ∅ ∧
      (0, 4) ∈ layout.edges ∧ (1, 2) ∈ layout.edges ∧ ¬ (0 < 1 ∧ 1 < 4 ∧ 4 < 2) := by
  let layout : Layout :=
    ⟨⟨0, 0⟩, [⟨3, 1⟩, ⟨5, 0⟩, ⟨3, 0⟩, ⟨1, 2⟩, ⟨-2, 0⟩, ⟨2, 0⟩], 50, 50⟩
  obtain ⟨_, greatest, rootless, _, _, _, apart⟩ := edges_noncrossing_forest layout
  have outer : (0, 4) ∈ layout.edges := by decide
  have inner : (1, 2) ∈ layout.edges := by decide
  exact ⟨layout, rfl, (greatest 4 0).1 rfl, ((rootless 5).1 rfl).2, outer, inner,
    apart 0 4 1 2 outer inner⟩

end Collapsing.Layout
