/-
  Enumeration: in which order going level by level comes to the nodes of a tree.

  1. **Program**: a tree grows from the root alone, one node at a time, each under a node that is
     there (`Grown`).  `breadthFirst` goes through it level by level.

  2. **Specification**: a tree can be kept in two other ways.  `recorded` writes down both ends of
     each link as it is made.  `Drains` goes through a queue that is read and grown at once, as long
     as there is something to read.  `LevelOrdered` says in which order the nodes may come.

  3. **The crux**: children are put behind all that is in the queue, so what is in it when a
     generation is read is the next one (`drains_level`).  Nodes of one generation come in the order
     of their parents, since the generation is made of the parents' children, one after the other
     (`pairwise_parents_breadthFirst`).

  4. **Result** (`enumerated_of_grown`): both links of a tree agree however it has grown, the queue
     comes to an end, and what was in it is `breadthFirst`, with all nodes in the order of levels.
-/
import Mathlib.Data.List.Basic
import ViewSheet.Proofs.Documents
import ViewSheet.Proofs.Nesting

namespace ViewSheet

namespace Hierarchy

/-! ## Growing -/

/-- The tree has grown from the root alone, each node under one that was there. -/
inductive Grown : Hierarchy → Prop where
  | empty : Grown Hierarchy.empty
  | add {h : Hierarchy} (hgrown : Grown h) {parent : Nat} (hparent : parent < h.size)
      (name : String) (indent : Nat) : Grown (h.add parent name indent)

theorem Grown.wellFormed {h : Hierarchy} (hgrown : h.Grown) : h.WellFormed := by
  induction hgrown with
  | empty => exact wellFormed_empty
  | add _ hparent name indent ih => exact ih.add hparent name indent

theorem WellFormed.lt_of_parent? {h : Hierarchy} (hwf : h.WellFormed) {c p : Nat}
    (hp : h.parent? c = some p) : p < c := by
  cases c with
  | zero => cases hp
  | succ i =>
    obtain ⟨n, hn, rfl⟩ := Option.map_eq_some_iff.mp hp
    exact Nat.lt_succ_of_le (hwf i n hn)

/-- A node is a child of the node that is its parent. -/
theorem WellFormed.mem_children_iff {h : Hierarchy} (hwf : h.WellFormed) {p c : Nat} :
    c ∈ h.children p ↔ h.parent? c = some p :=
  ⟨parent?_of_mem_children, fun hp => Hierarchy.mem_children_iff.mpr ⟨hwf.lt_of_parent? hp, hp⟩⟩

theorem eq_parent_of_mem_children {h : Hierarchy} {c p q : Nat} (hc : c ∈ h.children q)
    (hp : h.parent? c = some p) : p = q :=
  Option.some.inj (hp.symm.trans (parent?_of_mem_children hc))

theorem WellFormed.mem_breadthFirst_iff {h : Hierarchy} (hwf : h.WellFormed) {c : Nat} :
    c ∈ h.breadthFirst ↔ 0 < c ∧ c < h.size := by
  constructor
  · intro hc
    obtain ⟨p, hp, -, -⟩ := isVisited_parent hc
    exact ⟨pos_of_mem_breadthFirst hc, lt_size_of_parent? hp⟩
  · rintro ⟨hpos, hlt⟩
    exact (hwf.isVisited hlt).resolve_left (Nat.ne_of_gt hpos)

/-! ## Both ends of a link -/

/-- A node's links: to its parent, and to its children. -/
structure Links where
  parent : Option Nat
  children : List Nat
deriving DecidableEq, Repr

/-- A new node is written down with its parent, and with the parent as a child. -/
def record (places : List Links) (parent : Nat) : List Links :=
  (places ++ [Links.mk (some parent) []]).modify parent fun l =>
    { l with children := l.children ++ [places.length] }

/-- What is written down while the tree grows. -/
def recorded (h : Hierarchy) : List Links :=
  h.nodes.foldl (fun places n => record places n.parent) [Links.mk none []]

/-- The links of a node, found by looking through all nodes. -/
def links (h : Hierarchy) (i : Nat) : Links := ⟨h.parent? i, h.children i⟩

theorem childrenFrom_append (parent i : Nat) (xs ys : List Node) :
    childrenFrom parent i (xs ++ ys) =
      childrenFrom parent i xs ++ childrenFrom parent (i + xs.length) ys := by
  induction xs generalizing i with
  | nil => rfl
  | cons n rest ih =>
    have hnext : i + 1 + rest.length = i + (n :: rest).length := by
      rw [List.length_cons]
      omega
    rw [List.cons_append, childrenFrom, childrenFrom, ih (i + 1), hnext]
    split <;> rfl

/-- A new node is one more child of its parent, and changes nothing else. -/
theorem children_add {h : Hierarchy} {parent : Nat} (hparent : parent < h.size) (name : String)
    (indent i : Nat) :
    (h.add parent name indent).children i =
      if parent = i then h.children i ++ [h.size] else h.children i := by
  have hnumber : 1 + h.nodes.length = h.size := Nat.add_comm 1 _
  rw [children, add, childrenFrom_append, hnumber, childrenFrom, childrenFrom]
  by_cases hi : parent = i
  · rw [if_pos ⟨hi, hi ▸ hparent⟩, if_pos hi]
    rfl
  · rw [if_neg fun hboth => hi hboth.1, if_neg hi, List.append_nil]
    rfl

/-- The last node has no children yet. -/
theorem children_size (h : Hierarchy) : h.children h.size = [] := by
  refine List.eq_nil_iff_forall_not_mem.mpr fun c hc => ?_
  have hafter := lt_of_mem_children hc
  have hbefore := lt_size_of_mem_children hc
  omega

theorem links_add {h : Hierarchy} {parent : Nat} (hparent : parent < h.size) (name : String)
    (indent : Nat) {i : Nat} (hi : i < h.size) :
    (h.add parent name indent).links i =
      if parent = i then ⟨h.parent? i, h.children i ++ [h.size]⟩ else h.links i := by
  rw [links, parent?_add, if_neg (Nat.ne_of_lt hi), children_add hparent]
  split <;> rfl

theorem links_add_last {h : Hierarchy} {parent : Nat} (hparent : parent < h.size) (name : String)
    (indent : Nat) : (h.add parent name indent).links h.size = ⟨some parent, []⟩ := by
  rw [links, parent?_add, if_pos rfl, children_add hparent, if_neg (Nat.ne_of_lt hparent),
    children_size]

/-- **Both ends of every link** are found as they were written down. -/
theorem Grown.recorded_eq {h : Hierarchy} (hgrown : h.Grown) :
    h.recorded = (List.range h.size).map h.links := by
  induction hgrown with
  | empty => rfl
  | @add h hgrown parent hparent name indent ih =>
    have hstep : (h.add parent name indent).recorded = record h.recorded parent := by
      rw [recorded, Hierarchy.add, List.foldl_append]
      rfl
    have hlength : ((List.range h.size).map h.links).length = h.size := by
      rw [List.length_map, List.length_range]
    rw [hstep, ih, record, hlength, size_add]
    refine List.ext_getElem? fun i => ?_
    rw [List.getElem?_modify, List.getElem?_map]
    rcases Nat.lt_trichotomy i h.size with hi | rfl | hi
    · rw [List.getElem?_append_left (by omega), List.getElem?_map, List.getElem?_range hi,
        List.getElem?_range (by omega), Option.map_some, Option.map_some, links_add hparent name
        indent hi]
      show some _ = some _
      split <;> rfl
    · rw [List.getElem?_append_right (by omega), hlength, Nat.sub_self,
        List.getElem?_range (by omega), Option.map_some, links_add_last hparent name indent]
      exact congrArg some (if_neg (Nat.ne_of_lt hparent))
    · rw [List.getElem?_eq_none (by rw [List.length_append, hlength, List.length_singleton]; omega),
        List.getElem?_eq_none (by rw [List.length_range]; omega)]
      rfl

/-! ## The queue -/

/-- The queue is read from the place `next` on, each node's children are put at its end, and in the
    end there was `out` in it. -/
inductive Drains (h : Hierarchy) : List Nat → Nat → List Nat → Prop where
  | done {queue : List Nat} {next : Nat} (hend : queue.length ≤ next) : Drains h queue next queue
  | round {queue : List Nat} {next p : Nat} {out : List Nat} (hread : queue[next]? = some p)
      (hrest : Drains h (queue ++ h.children p) (next + 1) out) : Drains h queue next out

/-- In the end there is one thing only that can have been in the queue. -/
theorem Drains.unique {h : Hierarchy} {queue : List Nat} {next : Nat} {out out' : List Nat}
    (hout : h.Drains queue next out) (hout' : h.Drains queue next out') : out = out' := by
  induction hout with
  | done hend =>
    cases hout' with
    | done _ => rfl
    | round hread _ =>
      rw [List.getElem?_eq_none hend] at hread
      cases hread
  | round hread _ ih =>
    cases hout' with
    | done hend =>
      rw [List.getElem?_eq_none hend] at hread
      cases hread
    | round hread' hrest =>
      obtain rfl := Option.some.inj (hread.symm.trans hread')
      exact ih hrest

/-- Reading a whole level puts the next level behind it. -/
theorem drains_level {h : Hierarchy} {level : List Nat} {read behind out : List Nat}
    (hnext : h.Drains (read ++ level ++ (behind ++ level.flatMap h.children))
      (read.length + level.length) out) :
    h.Drains (read ++ level ++ behind) read.length out := by
  induction level generalizing read behind with
  | nil => simpa using hnext
  | cons p rest ih =>
    have hread : (read ++ p :: rest ++ behind)[read.length]? = some p := by simp
    refine .round hread ?_
    have hstep : h.Drains (read ++ [p] ++ rest ++ (behind ++ h.children p)) (read ++ [p]).length
        out := by
      apply ih
      simpa [Nat.add_comm, Nat.add_left_comm] using hnext
    simpa using hstep

theorem lt_size_of_mem_generation {h : Hierarchy} {k c : Nat} (hc : c ∈ h.generation k) :
    c < h.size := by
  cases k with
  | zero => exact lt_size_of_mem_children hc
  | succ k =>
    obtain ⟨p, -, hcp⟩ := List.mem_flatMap.mp hc
    exact lt_size_of_mem_children hcp

/-- There are no more generations than nodes. -/
theorem generation_eq_nil {h : Hierarchy} {k : Nat} (hk : h.nodes.length ≤ k) :
    h.generation k = [] := by
  refine List.eq_nil_iff_forall_not_mem.mpr fun c hc => ?_
  have hafter := lt_of_mem_generation hc
  have hbefore := lt_size_of_mem_generation hc
  rw [size] at hbefore
  omega

theorem drains_levels {h : Hierarchy} {more k : Nat} (hend : h.generation (k + more) = [])
    (read : List Nat) :
    h.Drains (read ++ h.generation k) read.length (read ++ h.levels more (h.generation k)) := by
  induction more generalizing k read with
  | zero =>
    rw [show h.generation k = [] from hend, levels]
    exact .done (by simp)
  | succ more ih =>
    have hrest := ih (k := k + 1) (by rw [← hend]; congr 1; omega) (read ++ h.generation k)
    have hlevel : h.Drains (read ++ h.generation k ++ []) read.length
        (read ++ (h.generation k ++ h.levels more (h.generation (k + 1)))) := by
      apply drains_level
      rw [List.nil_append, ← List.length_append, ← List.append_assoc]
      exact hrest
    rw [List.append_nil] at hlevel
    exact hlevel

/-- **The queue comes to an end**, and going level by level was going through the queue. -/
theorem drains_iff {h : Hierarchy} {out : List Nat} :
    h.Drains (h.children 0) 0 out ↔ out = h.breadthFirst := by
  have hdrains : h.Drains (h.children 0) 0 h.breadthFirst :=
    drains_levels (k := 0) (generation_eq_nil (by omega)) []
  exact ⟨fun hout => hout.unique hdrains, fun heq => heq ▸ hdrains⟩

/-! ## Which node comes first -/

/-- The nodes below the root are listed once each, and by levels.  The list puts parents before
    their children, siblings in the order in which they were added, and the other nodes of a level
    in the order of their parents. -/
structure LevelOrdered (h : Hierarchy) (order : List Nat) : Prop where
  nodup : order.Nodup
  mem_iff : ∀ c, c ∈ order ↔ 0 < c ∧ c < h.size
  levels : order.Pairwise fun a b => h.depth a ≤ h.depth b
  parents : ∀ c p, h.parent? c = some p → p ≠ 0 → order.idxOf p < order.idxOf c
  siblings : ∀ a b p, h.parent? a = some p → h.parent? b = some p → a < b →
    order.idxOf a < order.idxOf b
  cousins : ∀ a b p q, h.depth a = h.depth b → h.parent? a = some p → h.parent? b = some q →
    order.idxOf p < order.idxOf q → order.idxOf a < order.idxOf b

/-- If one of two entries may not come after the other, it comes before it. -/
theorem idxOf_lt_of_pairwise {R : Nat → Nat → Prop} {order : List Nat} (hpw : order.Pairwise R)
    {a b : Nat} (ha : a ∈ order) (hb : b ∈ order) (hne : a ≠ b) (hnot : ¬ R b a) :
    order.idxOf a < order.idxOf b := by
  rcases Nat.lt_trichotomy (order.idxOf a) (order.idxOf b) with hlt | heq | hgt
  · exact hlt
  · exact absurd ((List.idxOf_inj ha).mp heq) hne
  · have hba := List.pairwise_iff_getElem.mp hpw _ _ (List.idxOf_lt_length_iff.mpr hb)
      (List.idxOf_lt_length_iff.mpr ha) hgt
    rw [List.getElem_idxOf, List.getElem_idxOf] at hba
    exact absurd hba hnot

theorem pairwise_idxOf_lt {order : List Nat} (hnodup : order.Nodup) :
    order.Pairwise fun a b => order.idxOf a < order.idxOf b := by
  refine List.pairwise_iff_getElem.mpr fun i j hi hj hij => ?_
  rw [hnodup.idxOf_getElem i hi, hnodup.idxOf_getElem j hj]
  exact hij

theorem generation_sublist_breadthFirst {h : Hierarchy} {k : Nat} (hk : k < h.nodes.length) :
    (h.generation k).Sublist h.breadthFirst := by
  rw [breadthFirst_eq, List.flatMap_def]
  exact List.sublist_flatten_of_mem (List.mem_map_of_mem (List.mem_range.mpr hk))

/-- Siblings come in the order in which they were added. -/
theorem WellFormed.pairwise_siblings {h : Hierarchy} (hwf : h.WellFormed) {p : Nat}
    (hp : p < h.size) :
    h.breadthFirst.Pairwise fun a b => h.parent? a = some p → h.parent? b = some p → a < b := by
  have hchildren := pairwise_lt_childrenFrom p 1 h.nodes
  rw [show childrenFrom p 1 h.nodes = h.children p from rfl,
    ← filter_parent_breadthFirst (hwf.isVisited hp), List.pairwise_filter] at hchildren
  simpa using hchildren

/-- Nodes of one depth come in the order of their parents. -/
theorem pairwise_parents_breadthFirst (h : Hierarchy) :
    h.breadthFirst.Pairwise fun a b => h.depth a = h.depth b →
      ∀ p q, h.parent? a = some p → h.parent? b = some q → p ≠ q →
        h.breadthFirst.idxOf p < h.breadthFirst.idxOf q := by
  have hplaces := pairwise_idxOf_lt (nodup_breadthFirst h)
  conv => arg 2; rw [breadthFirst_eq]
  rw [List.pairwise_flatMap]
  constructor
  · intro k hk
    cases k with
    | zero =>
      -- all hang from the root
      refine List.pairwise_of_forall_mem_list fun a ha b hb _ p q hp hq hne => ?_
      exact absurd ((eq_parent_of_mem_children ha hp).trans
        (eq_parent_of_mem_children hb hq).symm) hne
    | succ k =>
      rw [generation, List.pairwise_flatMap]
      constructor
      · -- children of one node
        intro r _
        refine List.pairwise_of_forall_mem_list fun a ha b hb _ p q hp hq hne => ?_
        exact absurd ((eq_parent_of_mem_children ha hp).trans
          (eq_parent_of_mem_children hb hq).symm) hne
      · -- children of two nodes, of which the first comes first
        have hk' : k < h.nodes.length := by
          have := List.mem_range.mp hk
          omega
        refine (hplaces.sublist (generation_sublist_breadthFirst hk')).imp ?_
        intro r s hrs a ha b hb _ p q hp hq _
        rwa [eq_parent_of_mem_children ha hp, eq_parent_of_mem_children hb hq]
  · -- nodes of two generations are not of one depth
    refine List.pairwise_lt_range.imp ?_
    intro j k hjk a ha b hb hdepth
    rw [depth_of_mem_generation ha, depth_of_mem_generation hb] at hdepth
    omega

section
variable {h : Hierarchy} (hwf : h.WellFormed) {a b p q : Nat}
include hwf

theorem WellFormed.mem_breadthFirst_of_parent? (ha : h.parent? a = some p) :
    a ∈ h.breadthFirst :=
  hwf.mem_breadthFirst_iff.mpr
    ⟨Nat.zero_lt_of_lt (hwf.lt_of_parent? ha), lt_size_of_parent? ha⟩

/-- A parent is less deep than its child, and so comes before it. -/
theorem WellFormed.idxOf_parent_lt (ha : h.parent? a = some p) (hroot : p ≠ 0) :
    h.breadthFirst.idxOf p < h.breadthFirst.idxOf a := by
  have hlt := hwf.lt_of_parent? ha
  have hsize := Nat.lt_trans hlt (lt_size_of_parent? ha)
  have hp : p ∈ h.breadthFirst :=
    hwf.mem_breadthFirst_iff.mpr ⟨Nat.pos_of_ne_zero hroot, hsize⟩
  have hdepth := depth_of_mem_children (hwf.mem_children_iff.mpr ha)
  exact idxOf_lt_of_pairwise (pairwise_depth_breadthFirst h) hp (hwf.mem_breadthFirst_of_parent? ha)
    (Nat.ne_of_lt hlt) (by omega)

theorem WellFormed.idxOf_sibling_lt (ha : h.parent? a = some p) (hb : h.parent? b = some p)
    (hab : a < b) : h.breadthFirst.idxOf a < h.breadthFirst.idxOf b := by
  have hsize := Nat.lt_trans (hwf.lt_of_parent? ha) (lt_size_of_parent? ha)
  refine idxOf_lt_of_pairwise (hwf.pairwise_siblings hsize) (hwf.mem_breadthFirst_of_parent? ha)
    (hwf.mem_breadthFirst_of_parent? hb) (Nat.ne_of_lt hab) fun hba => ?_
  have hlt := hba hb ha
  omega

theorem WellFormed.idxOf_cousin_lt (hdepth : h.depth a = h.depth b) (ha : h.parent? a = some p)
    (hb : h.parent? b = some q) (hpq : h.breadthFirst.idxOf p < h.breadthFirst.idxOf q) :
    h.breadthFirst.idxOf a < h.breadthFirst.idxOf b := by
  have hne : p ≠ q := by
    rintro rfl
    omega
  have hab : a ≠ b := by
    rintro rfl
    exact hne (Option.some.inj (ha.symm.trans hb))
  refine idxOf_lt_of_pairwise (pairwise_parents_breadthFirst h) (hwf.mem_breadthFirst_of_parent? ha)
    (hwf.mem_breadthFirst_of_parent? hb) hab fun hba => ?_
  have hqp := hba hdepth.symm q p hb ha hne.symm
  omega

theorem WellFormed.levelOrdered : h.LevelOrdered h.breadthFirst where
  nodup := nodup_breadthFirst h
  mem_iff := fun _ => hwf.mem_breadthFirst_iff
  levels := pairwise_depth_breadthFirst h
  parents := fun _ _ => hwf.idxOf_parent_lt
  siblings := fun _ _ _ => hwf.idxOf_sibling_lt
  cousins := fun _ _ _ _ => hwf.idxOf_cousin_lt

end

/-! ## Result -/

/-- What can be relied on in a tree: its links agree at both ends, and going through it level by
    level comes to an end and lists its nodes in level order. -/
structure Enumerated (h : Hierarchy) : Prop where
  recorded : h.recorded = (List.range h.size).map h.links
  mem_children_iff : ∀ p c, c ∈ h.children p ↔ h.parent? c = some p
  lt_of_parent : ∀ c p, h.parent? c = some p → p < c ∧ c < h.size
  exists_parent : ∀ c, 0 < c → c < h.size → ∃ p, h.parent? c = some p
  root : h.parent? 0 = none
  drains_iff : ∀ out, h.Drains (h.children 0) 0 out ↔ out = h.breadthFirst
  levelOrdered : h.LevelOrdered h.breadthFirst

/-- **Level by level, every node once.**  However a tree has grown, each of its links is known at
    both ends and leads to an earlier node, and going level by level lists all nodes below the root
    in level order. -/
theorem enumerated_of_grown {h : Hierarchy} (hgrown : h.Grown) : h.Enumerated where
  recorded := hgrown.recorded_eq
  mem_children_iff := fun _ _ => hgrown.wellFormed.mem_children_iff
  lt_of_parent := fun _ _ hp => ⟨hgrown.wellFormed.lt_of_parent? hp, lt_size_of_parent? hp⟩
  exists_parent := fun _ => exists_parent?
  root := parent?_zero h
  drains_iff := fun _ => Hierarchy.drains_iff
  levelOrdered := hgrown.wellFormed.levelOrdered

/-- A tree whose links cross: its nodes were not added in the order of their levels, nor each behind
    its parent's last child. -/
theorem enumerated_of_grown_crossed :
    ∃ h : Hierarchy, h.Grown ∧ h.Enumerated ∧ h.breadthFirst = [1, 2, 5, 4, 6, 3] ∧
      h.recorded.map (·.children) = [[1, 2, 5], [4, 6], [3], [], [], [], []] := by
  have hthree := ((Grown.empty.add (show 0 < 1 by decide) "a" 0).add (show 0 < 2 by decide) "b"
    0).add (show 2 < 3 by decide) "c" 0
  have hgrown := ((hthree.add (show 1 < 4 by decide) "d" 0).add (show 0 < 5 by decide) "e" 0).add
    (show 1 < 6 by decide) "f" 0
  exact ⟨_, hgrown, enumerated_of_grown hgrown, by decide, by decide⟩

end Hierarchy

end ViewSheet
