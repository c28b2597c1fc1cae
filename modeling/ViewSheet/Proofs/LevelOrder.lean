/-
  Level order: what going through a hierarchy level by level visits, and in which order.

  1. **Specification**: `depth` counts the links from a node up to the root, `generation k` lists
     the nodes that are `k + 1` links below it.  `breadthFirst` is one generation after the other
     (`breadthFirst_eq`).

  2. **Crux**: all nodes of a generation have the same depth (`depth_of_mem_generation`), so no node
     is in two of them.  Hence every node comes at most once (`nodup_breadthFirst`), a node never
     comes before its parent (`parent_precedes`), and the children of a node that is visited come in
     the order in which they were added (`filter_parent_breadthFirst`).

  3. **Why no node is cut off**: numbers grow from parent to child, so a node of generation `k` has
     a number above `k` (`lt_of_mem_generation`); `breadthFirst` goes as many generations down as
     there are nodes.
-/
import ViewSheet.Sheet.Hierarchy

namespace ViewSheet

namespace Hierarchy

/-! ## Links between a node and its children -/

/-- The names of the nodes below the root, in the order in which they were added. -/
def names (h : Hierarchy) : List String := h.nodes.map (·.name)

theorem mem_childrenFrom_iff {parent i c : Nat} {nodes : List Node} :
    c ∈ childrenFrom parent i nodes ↔
      i ≤ c ∧ parent < c ∧ (nodes[c - i]?).map (·.parent) = some parent := by
  induction nodes generalizing i with
  | nil => simp [childrenFrom]
  | cons n rest ih =>
    have hrest : c ∈ childrenFrom parent (i + 1) rest ↔
        i + 1 ≤ c ∧ parent < c ∧ (rest[c - (i + 1)]?).map (·.parent) = some parent := ih
    -- a number above `i` looks one place further down the list
    have hshift : i + 1 ≤ c → (n :: rest)[c - i]? = rest[c - (i + 1)]? := by
      intro hle
      rw [show c - i = (c - (i + 1)) + 1 by omega, List.getElem?_cons_succ]
    have hhead : c = i → (n :: rest)[c - i]? = some n := by
      intro hc
      rw [hc, Nat.sub_self, List.getElem?_cons_zero]
    rw [childrenFrom]
    split
    · rename_i hn
      rw [List.mem_cons, hrest]
      constructor
      · rintro (hc | ⟨hle, hlt, hp⟩)
        · exact ⟨by omega, by omega, by rw [hhead hc]; simp [hn.1]⟩
        · exact ⟨by omega, hlt, by rw [hshift hle]; exact hp⟩
      · rintro ⟨hle, hlt, hp⟩
        rcases Nat.lt_or_eq_of_le hle with hgt | heq
        · exact Or.inr ⟨hgt, hlt, by rw [← hshift hgt]; exact hp⟩
        · exact Or.inl heq.symm
    · rename_i hn
      rw [hrest]
      constructor
      · rintro ⟨hle, hlt, hp⟩
        exact ⟨by omega, hlt, by rw [hshift hle]; exact hp⟩
      · rintro ⟨hle, hlt, hp⟩
        rcases Nat.lt_or_eq_of_le hle with hgt | heq
        · exact ⟨hgt, hlt, by rw [← hshift hgt]; exact hp⟩
        · rw [hhead heq.symm] at hp
          exact absurd ⟨by simpa using hp, by omega⟩ hn

/-- A child is a later node that names its parent. -/
theorem mem_children_iff {h : Hierarchy} {p c : Nat} :
    c ∈ h.children p ↔ p < c ∧ h.parent? c = some p := by
  rw [children, mem_childrenFrom_iff]
  cases c with
  | zero => simp
  | succ i => simp [parent?, node?]

theorem parent?_of_mem_children {h : Hierarchy} {p c : Nat} (hc : c ∈ h.children p) :
    h.parent? c = some p :=
  (mem_children_iff.mp hc).2

theorem parent?_zero (h : Hierarchy) : h.parent? 0 = none := rfl

theorem lt_size_of_parent? {h : Hierarchy} {node p : Nat} (hp : h.parent? node = some p) :
    node < h.size := by
  cases node with
  | zero => exact Nat.succ_pos _
  | succ i =>
    obtain ⟨n, hn, -⟩ := Option.map_eq_some_iff.mp hp
    exact Nat.succ_lt_succ (List.getElem?_eq_some_iff.mp hn).1

theorem lt_of_mem_childrenFrom {parent i c : Nat} {nodes : List Node}
    (hc : c ∈ childrenFrom parent (i + 1) nodes) : i < c :=
  (mem_childrenFrom_iff.mp hc).1

theorem pairwise_lt_childrenFrom (parent i : Nat) (nodes : List Node) :
    (childrenFrom parent i nodes).Pairwise (· < ·) := by
  induction nodes generalizing i with
  | nil => exact List.Pairwise.nil
  | cons n rest ih =>
    rw [childrenFrom]
    split
    · exact List.Pairwise.cons (fun c hc => lt_of_mem_childrenFrom hc) (ih (i + 1))
    · exact ih (i + 1)

/-- Children are listed in the order in which they were added, each once. -/
theorem nodup_children (h : Hierarchy) (p : Nat) : (h.children p).Nodup :=
  (pairwise_lt_childrenFrom p 1 h.nodes).imp Nat.ne_of_lt

/-! ## Depth -/

/-- How many links lead from a node up to the root.  A node that names no earlier node as its parent
    counts as one that hangs nowhere. -/
def depth (h : Hierarchy) : Nat → Nat
  | 0 => 0
  | i + 1 => match h.parent? (i + 1) with
    | none => 0
    | some p => if _hp : p ≤ i then depth h p + 1 else 0

theorem depth_zero (h : Hierarchy) : h.depth 0 = 0 := by rw [depth]

theorem depth_of_mem_children {h : Hierarchy} {p c : Nat} (hc : c ∈ h.children p) :
    h.depth c = h.depth p + 1 := by
  obtain ⟨hlt, hp⟩ := mem_children_iff.mp hc
  cases c with
  | zero => omega
  | succ i => rw [depth, hp]; simp [show p ≤ i by omega]

/-! ## Generations -/

/-- The nodes that are so many links, and one, below the root. -/
def generation (h : Hierarchy) : Nat → List Nat
  | 0 => h.children 0
  | k + 1 => (h.generation k).flatMap h.children

theorem depth_of_mem_generation {h : Hierarchy} {k c : Nat} (hc : c ∈ h.generation k) :
    h.depth c = k + 1 := by
  induction k generalizing c with
  | zero => rw [depth_of_mem_children hc, depth_zero]
  | succ k ih =>
    obtain ⟨p, hp, hcp⟩ := List.mem_flatMap.mp hc
    rw [depth_of_mem_children hcp, ih hp]

theorem lt_of_mem_generation {h : Hierarchy} {k c : Nat} (hc : c ∈ h.generation k) : k < c := by
  induction k generalizing c with
  | zero => exact lt_of_mem_children hc
  | succ k ih =>
    obtain ⟨p, hp, hcp⟩ := List.mem_flatMap.mp hc
    have := ih hp
    have := lt_of_mem_children hcp
    omega

theorem nodup_generation (h : Hierarchy) (k : Nat) : (h.generation k).Nodup := by
  induction k with
  | zero => exact nodup_children h 0
  | succ k ih =>
    rw [generation, List.Nodup, List.pairwise_flatMap]
    refine ⟨fun p _ => nodup_children h p, ih.imp ?_⟩
    intro p q hpq c hc d hd hcd
    -- one child has one parent
    have h1 := parent?_of_mem_children hc
    have h2 := parent?_of_mem_children hd
    rw [hcd, h2, Option.some.injEq] at h1
    exact hpq h1.symm

theorem levels_eq (h : Hierarchy) (more k : Nat) :
    h.levels more (h.generation k) =
      (List.range more).flatMap fun i => h.generation (k + i) := by
  induction more generalizing k with
  | zero => rfl
  | succ more ih =>
    show h.generation k ++ h.levels more (h.generation (k + 1)) = _
    rw [ih (k + 1), List.range_succ_eq_map, List.flatMap_cons, List.flatMap_map]
    simp only [Nat.add_zero, Nat.succ_eq_add_one, Nat.add_assoc, Nat.add_comm 1]

/-- Going level by level is going generation by generation. -/
theorem breadthFirst_eq (h : Hierarchy) :
    h.breadthFirst = (List.range h.nodes.length).flatMap h.generation := by
  have := levels_eq h h.nodes.length 0
  simpa [breadthFirst, generation] using this

theorem mem_breadthFirst_iff {h : Hierarchy} {c : Nat} :
    c ∈ h.breadthFirst ↔ ∃ k, k < h.nodes.length ∧ c ∈ h.generation k := by
  simp [breadthFirst_eq, List.mem_flatMap]

/-! ## The order of the whole -/

/-- Shallow nodes come first. -/
theorem pairwise_depth_breadthFirst (h : Hierarchy) :
    h.breadthFirst.Pairwise fun a b => h.depth a ≤ h.depth b := by
  rw [breadthFirst_eq, List.pairwise_flatMap]
  constructor
  · -- within one generation all are equally deep
    intro k _
    refine List.pairwise_of_forall_mem_list ?_
    intro a ha b hb
    exact Nat.le_of_eq ((depth_of_mem_generation ha).trans (depth_of_mem_generation hb).symm)
  · -- and generations come in order
    refine List.pairwise_lt_range.imp ?_
    intro j k hjk a ha b hb
    rw [depth_of_mem_generation ha, depth_of_mem_generation hb]
    omega

/-- Every node comes at most once. -/
theorem nodup_breadthFirst (h : Hierarchy) : h.breadthFirst.Nodup := by
  rw [breadthFirst_eq, List.Nodup, List.pairwise_flatMap]
  refine ⟨fun k _ => nodup_generation h k, List.nodup_range.imp ?_⟩
  intro j k hjk a ha b hb hab
  have h1 := depth_of_mem_generation ha
  have h2 := depth_of_mem_generation hb
  rw [hab, h2] at h1
  omega

theorem pos_of_mem_breadthFirst {h : Hierarchy} {c : Nat} (hc : c ∈ h.breadthFirst) : 0 < c := by
  obtain ⟨k, -, hk⟩ := mem_breadthFirst_iff.mp hc
  exact Nat.lt_of_le_of_lt (Nat.zero_le k) (lt_of_mem_generation hk)

/-- Whether going level by level comes to the node, or starts there. -/
def IsVisited (h : Hierarchy) (p : Nat) : Prop := p = 0 ∨ p ∈ h.breadthFirst

/-- The parent of a visited node is visited, and the node is among its children. -/
theorem isVisited_parent {h : Hierarchy} {c : Nat} (hc : c ∈ h.breadthFirst) :
    ∃ p, h.parent? c = some p ∧ h.IsVisited p ∧ c ∈ h.children p := by
  obtain ⟨k, hk, hck⟩ := mem_breadthFirst_iff.mp hc
  cases k with
  | zero => exact ⟨0, parent?_of_mem_children hck, Or.inl rfl, hck⟩
  | succ k =>
    obtain ⟨p, hp, hcp⟩ := List.mem_flatMap.mp hck
    exact ⟨p, parent?_of_mem_children hcp,
      Or.inr (mem_breadthFirst_iff.mpr ⟨k, by omega, hp⟩), hcp⟩

/-- A node does not come before its parent. -/
theorem parent_precedes {h : Hierarchy} {before after : List Nat} {c x : Nat}
    (hsplit : h.breadthFirst = before ++ c :: after) (hx : x ∈ before) : h.parent? x ≠ some c := by
  intro hp
  have hle : h.depth x ≤ h.depth c := by
    have hpw := pairwise_depth_breadthFirst h
    rw [hsplit, List.pairwise_append] at hpw
    exact hpw.2.2 x hx c List.mem_cons_self
  obtain ⟨q, hq, -, hxq⟩ :=
    isVisited_parent (h := h) (c := x) (by rw [hsplit]; exact List.mem_append_left _ hx)
  rw [hp, Option.some.injEq] at hq
  have := depth_of_mem_children hxq
  rw [← hq] at this
  omega

/-! ## The children of one node -/

theorem filter_parent_children (h : Hierarchy) (p q : Nat) :
    (h.children q).filter (fun c => h.parent? c = some p) = if q = p then h.children q else [] := by
  split
  · rename_i hq
    rw [List.filter_eq_self]
    intro c hc
    simp [parent?_of_mem_children hc, hq]
  · rename_i hq
    rw [List.filter_eq_nil_iff]
    intro c hc
    simp [parent?_of_mem_children hc, hq]

theorem filter_parent_flatMap (h : Hierarchy) (p : Nat) {level : List Nat} (hlevel : level.Nodup) :
    (level.flatMap h.children).filter (fun c => h.parent? c = some p) =
      if p ∈ level then h.children p else [] := by
  induction level with
  | nil => rfl
  | cons q rest ih =>
    obtain ⟨hq, hrest⟩ := List.nodup_cons.mp hlevel
    rw [List.flatMap_cons, List.filter_append, filter_parent_children, ih hrest]
    by_cases hqp : q = p
    · subst hqp
      simp [hq]
    · simp [hqp, Ne.symm hqp]

/-- The children of a visited node are one stretch of one generation. -/
theorem filter_parent_generation {h : Hierarchy} {p : Nat} (hp : h.IsVisited p) (k : Nat) :
    (h.generation k).filter (fun c => h.parent? c = some p) =
      if h.depth p = k then h.children p else [] := by
  cases k with
  | zero =>
    rw [generation, filter_parent_children]
    rcases hp with rfl | hp
    · simp [depth_zero]
    · have hpos := pos_of_mem_breadthFirst hp
      obtain ⟨j, -, hj⟩ := mem_breadthFirst_iff.mp hp
      rw [depth_of_mem_generation hj, if_neg (by omega), if_neg (by omega)]
  | succ k =>
    rw [generation, filter_parent_flatMap h p (nodup_generation h k)]
    have hiff : p ∈ h.generation k ↔ h.depth p = k + 1 := by
      refine ⟨depth_of_mem_generation, fun hd => ?_⟩
      rcases hp with rfl | hp
      · rw [depth_zero] at hd
        omega
      · obtain ⟨j, -, hj⟩ := mem_breadthFirst_iff.mp hp
        have := depth_of_mem_generation hj
        rwa [show k = j by omega]
    simp only [hiff]

theorem mem_generation_depth {h : Hierarchy} {p c : Nat} (hp : h.IsVisited p)
    (hc : c ∈ h.children p) : c ∈ h.generation (h.depth p) := by
  have hfilter := filter_parent_generation hp (h.depth p)
  rw [if_pos rfl] at hfilter
  rw [← hfilter] at hc
  exact (List.mem_filter.mp hc).1

theorem flatMap_range_single (n m : Nat) (l : List Nat) :
    ((List.range n).flatMap fun k => if m = k then l else []) = if m < n then l else [] := by
  induction n with
  | zero => rfl
  | succ n ih =>
    rw [List.range_succ, List.flatMap_append, ih, List.flatMap_cons, List.flatMap_nil]
    rcases Nat.lt_trichotomy m n with hlt | heq | hgt
    · simp [hlt, Nat.lt_succ_of_lt hlt, Nat.ne_of_lt hlt]
    · simp [heq]
    · simp [Nat.not_lt.mpr (Nat.le_of_lt hgt), Nat.not_lt.mpr (Nat.succ_le_of_lt hgt),
        Nat.ne_of_gt hgt]

/-- The children of a visited node come all, and in the order in which they were added. -/
theorem filter_parent_breadthFirst {h : Hierarchy} {p : Nat} (hp : h.IsVisited p) :
    h.breadthFirst.filter (fun c => h.parent? c = some p) = h.children p := by
  rw [breadthFirst_eq, List.filter_flatMap]
  simp only [filter_parent_generation hp]
  rw [flatMap_range_single]
  split
  · rfl
  · -- children would have numbers beyond the last
    rename_i hcut
    cases hchildren : h.children p with
    | nil => rfl
    | cons c rest =>
      have hc : c ∈ h.children p := by rw [hchildren]; exact List.mem_cons_self
      have := lt_of_mem_generation (mem_generation_depth hp hc)
      have := lt_size_of_mem_children hc
      simp only [size] at this
      omega

theorem isVisited_of_mem_children {h : Hierarchy} {p c : Nat} (hp : h.IsVisited p)
    (hc : c ∈ h.children p) : c ∈ h.breadthFirst := by
  rw [← filter_parent_breadthFirst hp] at hc
  exact (List.mem_filter.mp hc).1

/-! ## Well-formed trees -/

/-- Every node hangs from an earlier one. -/
def WellFormed (h : Hierarchy) : Prop :=
  ∀ (i : Nat) (n : Node), h.nodes[i]? = some n → n.parent ≤ i

/-- In a well-formed tree, going level by level comes to every node. -/
theorem WellFormed.isVisited {h : Hierarchy} (hwf : h.WellFormed) {node : Nat}
    (hnode : node < h.size) : h.IsVisited node := by
  induction node using Nat.strongRecOn with
  | ind node ih =>
    cases node with
    | zero => exact Or.inl rfl
    | succ i =>
      have hlt : i < h.nodes.length := by
        rw [size] at hnode
        omega
      have hn : h.nodes[i]? = some h.nodes[i] := List.getElem?_eq_getElem hlt
      have hle := hwf i _ hn
      have hparent := ih h.nodes[i].parent (by omega) (by omega)
      refine Or.inr (isVisited_of_mem_children hparent (mem_children_iff.mpr ⟨by omega, ?_⟩))
      show (h.nodes[i]?).map (·.parent) = some h.nodes[i].parent
      rw [hn]
      rfl

/-! ## Distinct names -/

theorem findFrom_eq_none {name : String} {i : Nat} {nodes : List Node}
    (h : name ∉ nodes.map (·.name)) : findFrom name i nodes = none := by
  induction nodes generalizing i with
  | nil => rfl
  | cons n rest ih =>
    rw [List.map_cons, List.mem_cons, not_or] at h
    rw [findFrom, ih h.2]
    exact if_neg (Ne.symm h.1)

theorem findFrom_of_getElem? {nodes : List Node} (hdistinct : (nodes.map (·.name)).Nodup)
    {i k : Nat} {n : Node} (hn : nodes[k]? = some n) :
    findFrom n.name i nodes = some (i + k) := by
  induction nodes generalizing i k with
  | nil => simp at hn
  | cons m rest ih =>
    rw [List.map_cons, List.nodup_cons] at hdistinct
    cases k with
    | zero =>
      rw [List.getElem?_cons_zero, Option.some.injEq] at hn
      rw [findFrom, ← hn, findFrom_eq_none hdistinct.1]
      simp
    | succ k =>
      rw [List.getElem?_cons_succ] at hn
      rw [findFrom, ih hdistinct.2 hn]
      simp only [Option.some.injEq]
      omega

theorem exists_node_of_mem_breadthFirst {h : Hierarchy} {c : Nat} (hc : c ∈ h.breadthFirst) :
    ∃ i n, c = i + 1 ∧ h.nodes[i]? = some n ∧ h.nameOf c = n.name := by
  obtain ⟨p, hp, -, -⟩ := isVisited_parent hc
  cases c with
  | zero => simp [parent?_zero] at hp
  | succ i =>
    obtain ⟨n, hn, -⟩ := Option.map_eq_some_iff.mp hp
    refine ⟨i, n, rfl, hn, ?_⟩
    rw [nameOf, hn]

/-- If no name is given twice, the node found under a name is the only one. -/
theorem find?_nameOf {h : Hierarchy} (hdistinct : h.names.Nodup) {c : Nat}
    (hc : c ∈ h.breadthFirst) : h.find? (h.nameOf c) = some c := by
  obtain ⟨i, n, rfl, hn, hname⟩ := exists_node_of_mem_breadthFirst hc
  rw [hname, find?, findFrom_of_getElem? hdistinct hn, Nat.add_comm]

/-- If no name is given twice, a name stands for one node. -/
theorem nameOf_inj {h : Hierarchy} (hdistinct : h.names.Nodup) {c d : Nat}
    (hc : c ∈ h.breadthFirst) (hd : d ∈ h.breadthFirst) (hname : h.nameOf c = h.nameOf d) :
    c = d := by
  have h1 := find?_nameOf hdistinct hc
  rw [hname, find?_nameOf hdistinct hd, Option.some.injEq] at h1
  exact h1.symm

theorem nameOf_mem_names {h : Hierarchy} {c : Nat} (hc : c ∈ h.breadthFirst) :
    h.nameOf c ∈ h.names := by
  obtain ⟨i, n, -, hn, hname⟩ := exists_node_of_mem_breadthFirst hc
  rw [hname]
  exact List.mem_map_of_mem (List.mem_of_getElem? hn)

end Hierarchy

end ViewSheet
