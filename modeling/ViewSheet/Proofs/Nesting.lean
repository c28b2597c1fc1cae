/-
  Nesting: which name of a body a view name hangs from.

  1. **Program**: `Growth.readAll` goes through the lines once.  It keeps the nodes that are still
     open, innermost first; a name closes those that are not indented less than it is, and hangs
     from the innermost of the rest.

  2. **Specification**: `Nearest h indent i p` says that `p` is the last node before number `i` that
     is indented less than `indent`, or the root if there is none.

  3. **The crux** (`Watchful`): the open nodes are as good as all of them, for the next name and
     whatever its indent.  A name that is placed is the nearest for every deeper indent; for the
     others it hides nothing, since what it has closed is not indented less than they are
     (`parentFor_place`).

  4. **Result** (`Growth.readAll_nearest`).
-/
import ViewSheet.Proofs.LevelOrder
import ViewSheet.Proofs.Pieces
import ViewSheet.Sheet.Body

namespace ViewSheet

open Text

namespace Hierarchy

/-! ## The nearest node that is indented less -/

/-- How far the line of a node is indented; the root is on no line. -/
def indent (h : Hierarchy) (i : Nat) : Nat :=
  match h.node? i with
  | some n => n.indent
  | none => 0

/-- Of the nodes before number `i`, `p` is the last that is indented less than `indent`.  It is the
    root if there is none. -/
structure Nearest (h : Hierarchy) (indent i p : Nat) : Prop where
  before : p < i
  less : p ≠ 0 → h.indent p < indent
  last : ∀ j, p < j → j < i → indent ≤ h.indent j

/-- Every node hangs from the nearest that is indented less. -/
def Nested (h : Hierarchy) : Prop := ∀ i p, h.parent? i = some p → h.Nearest (h.indent i) i p

/-- Every node below the root hangs somewhere. -/
theorem exists_parent? {h : Hierarchy} {i : Nat} (hpos : 0 < i) (hi : i < h.size) :
    ∃ p, h.parent? i = some p := by
  cases i with
  | zero => omega
  | succ i =>
    have hlt : i < h.nodes.length := by
      rw [size] at hi
      omega
    exact ⟨h.nodes[i].parent, by simp [parent?, node?, hlt]⟩

/-! ## One more node -/

section
variable (h : Hierarchy) (parent : Nat) (name : String) (indent : Nat)

theorem size_add : (h.add parent name indent).size = h.size + 1 := by
  simp [add, size]

theorem node?_add (i : Nat) :
    (h.add parent name indent).node? i =
      if i = h.size then some ⟨name, indent, parent⟩ else h.node? i := by
  cases i with
  | zero => rfl
  | succ i =>
    have hsize : i + 1 = h.size ↔ i = h.nodes.length := by
      rw [size]
      omega
    simp only [hsize]
    show (h.nodes ++ [⟨name, indent, parent⟩])[i]? = if i = h.nodes.length then _ else h.nodes[i]?
    rw [List.getElem?_append]
    split_ifs with hlt heq heq
    · omega
    · rfl
    · rw [heq, Nat.sub_self]
      rfl
    · rw [List.getElem?_eq_none (by rw [List.length_singleton]; omega),
        List.getElem?_eq_none (by omega)]

theorem parent?_add (i : Nat) :
    (h.add parent name indent).parent? i = if i = h.size then some parent else h.parent? i := by
  rw [parent?, node?_add]
  split <;> rfl

theorem indent_add (i : Nat) :
    (h.add parent name indent).indent i = if i = h.size then indent else h.indent i := by
  rw [Hierarchy.indent, node?_add]
  by_cases hi : i = h.size
  · rw [if_pos hi, if_pos hi]
  · rw [if_neg hi, if_neg hi]
    rfl

end

/-- What stands before a node is not changed by one that comes later. -/
theorem Nearest.add {h : Hierarchy} {x i p : Nat} (hp : h.Nearest x i p) (hi : i ≤ h.size)
    (parent : Nat) (name : String) (indent : Nat) :
    (h.add parent name indent).Nearest x i p := by
  have hsame : ∀ j, j < i → (h.add parent name indent).indent j = h.indent j := by
    intro j hj
    rw [indent_add, if_neg (by omega)]
  refine ⟨hp.before, fun hne => ?_, fun j hpj hj => ?_⟩
  · rw [hsame p hp.before]
    exact hp.less hne
  · rw [hsame j hj]
    exact hp.last j hpj hj

end Hierarchy

namespace Growth

/-! ## Open nodes -/

/-- Where a name with this indent hangs. -/
def parentFor (g : Growth) (indent : Nat) : Nat :=
  match g.openNodes.dropWhile fun opened => indent ≤ opened.1 with
  | [] => 0
  | (_, p) :: _ => p

theorem place_eq (g : Growth) (name : String) (indent : Nat) :
    g.place name indent =
      ⟨g.hierarchy.add (g.parentFor indent) name indent,
        (indent, g.hierarchy.size) :: g.openNodes.dropWhile fun opened => indent ≤ opened.1⟩ := rfl

/-- What is dropped for one indent is dropped for a smaller one. -/
theorem dropWhile_dropWhile_le {small large : Nat} (h : small ≤ large)
    (opened : List (Nat × Nat)) :
    (opened.dropWhile fun o => large ≤ o.1).dropWhile (fun o => small ≤ o.1) =
      opened.dropWhile fun o => small ≤ o.1 := by
  induction opened with
  | nil => rfl
  | cons o rest ih =>
    by_cases ho : large ≤ o.1
    · have hsmall : small ≤ o.1 := by omega
      rw [List.dropWhile_cons_of_pos (by simpa using ho), ih,
        List.dropWhile_cons_of_pos (by simpa using hsmall)]
    · rw [List.dropWhile_cons_of_neg (by simpa using ho)]

/-- Deeper names hang from a name that is placed, the others from where they would hang without
    it. -/
theorem parentFor_place (g : Growth) (name : String) (indent x : Nat) :
    (g.place name indent).parentFor x =
      if indent < x then g.hierarchy.size else g.parentFor x := by
  rw [place_eq, parentFor]
  dsimp only
  split_ifs with hx
  · rw [List.dropWhile_cons_of_neg (by simpa using hx)]
  · have hle : x ≤ indent := by omega
    rw [List.dropWhile_cons_of_pos (by simpa using hle), dropWhile_dropWhile_le hle, parentFor]

/-- A tree while it is read: each node hangs from the nearest that is indented less, and so will the
    next one, whatever its indent. -/
structure Watchful (g : Growth) : Prop where
  nested : g.hierarchy.Nested
  next : ∀ indent, g.hierarchy.Nearest indent g.hierarchy.size (g.parentFor indent)

theorem watchful_start : start.Watchful := by
  constructor
  · intro i p hp
    cases i <;> cases hp
  · intro indent
    have hsize : start.hierarchy.size = 1 := rfl
    have hroot : start.parentFor indent = 0 := rfl
    rw [hsize, hroot]
    exact ⟨by omega, fun h => absurd rfl h, fun j hj hj' => by omega⟩

theorem Watchful.place {g : Growth} (h : g.Watchful) (name : String) (indent : Nat) :
    (g.place name indent).Watchful := by
  have hgrown : (g.place name indent).hierarchy =
      g.hierarchy.add (g.parentFor indent) name indent := by rw [place_eq]
  constructor
  · intro i p hp
    rw [hgrown] at hp ⊢
    rw [Hierarchy.parent?_add] at hp
    rw [Hierarchy.indent_add]
    by_cases hi : i = g.hierarchy.size
    · rw [if_pos hi, Option.some.injEq] at hp
      rw [if_pos hi, hi, ← hp]
      exact (h.next indent).add (Nat.le_refl _) ..
    · rw [if_neg hi] at hp ⊢
      have hlt := Hierarchy.lt_size_of_parent? hp
      exact (h.nested i p hp).add (Nat.le_of_lt hlt) ..
  · intro x
    rw [parentFor_place, hgrown, Hierarchy.size_add]
    have hold := (h.next x).add (Nat.le_refl _) (g.parentFor indent) name indent
    have hnew := Hierarchy.indent_add g.hierarchy (g.parentFor indent) name indent g.hierarchy.size
    rw [if_pos rfl] at hnew
    split_ifs with hx
    · refine ⟨by omega, fun _ => by rw [hnew]; exact hx, fun j hj hj' => ?_⟩
      omega
    · refine ⟨by have := hold.before; omega, hold.less, fun j hj hj' => ?_⟩
      rcases Nat.lt_or_eq_of_le (Nat.le_of_lt_succ hj') with hlt | heq
      · exact hold.last j hj hlt
      · rw [heq, hnew]
        omega

/-! ## Reading -/

/-- Places the name on a line. -/
def placeLine (g : Growth) (l : Line) : Growth :=
  g.place (String.ofList (trim l.text)) (indentOf l.text)

theorem isEmpty_trim (l : Line) : (trim l.text).isEmpty = l.isEmpty := by
  rw [Bool.eq_iff_iff, List.isEmpty_iff, trim_eq_nil, Line.isEmpty, List.all_eq_true]

/-- Lines that can be read have their names placed, one after the other; lines of blanks have
    none. -/
theorem eq_of_readAll {g : Growth} {lines : List Line} {tree : Hierarchy}
    (h : (g.readAll lines).2 = .ok tree) :
    tree = ((lines.filter (!·.isEmpty)).foldl placeLine g).hierarchy := by
  induction lines generalizing g with
  | nil =>
    rw [readAll, Except.ok.injEq] at h
    exact h.symm
  | cons l rest ih =>
    rw [readAll] at h
    dsimp only at h
    rw [isEmpty_trim] at h
    cases hempty : l.isEmpty with
    | true =>
      rw [hempty, if_pos rfl] at h
      rw [List.filter_cons, hempty]
      exact ih h
    | false =>
      rw [hempty, if_neg Bool.false_ne_true] at h
      split at h
      · cases h
      · rw [List.filter_cons, hempty]
        exact ih h

theorem Watchful.foldl {g : Growth} (h : g.Watchful) (lines : List Line) :
    (lines.foldl placeLine g).Watchful := by
  induction lines generalizing g with
  | nil => exact h
  | cons l rest ih => exact ih (h.place _ _)

theorem nodes_foldl (g : Growth) (lines : List Line) :
    (lines.foldl placeLine g).hierarchy.nodes.map (fun n => (n.name, n.indent)) =
      g.hierarchy.nodes.map (fun n => (n.name, n.indent)) ++
        lines.map fun l => (String.ofList (trim l.text), indentOf l.text) := by
  induction lines generalizing g with
  | nil => simp
  | cons l rest ih =>
    rw [List.foldl_cons, ih, placeLine, place_eq]
    simp [Hierarchy.add]

theorem nested_of_readAll {lines : List Line} {tree : Hierarchy}
    (h : (start.readAll lines).2 = .ok tree) : tree.Nested := by
  rw [eq_of_readAll h]
  exact (watchful_start.foldl _).nested

/-- The nodes are the lines that are not empty. -/
theorem nodes_of_readAll {lines : List Line} {tree : Hierarchy}
    (h : (start.readAll lines).2 = .ok tree) :
    tree.nodes.map (fun n => (n.name, n.indent)) =
      (lines.filter (!·.isEmpty)).map fun l =>
        (String.ofList (trim l.text), indentOf l.text) := by
  rw [eq_of_readAll h, nodes_foldl]
  rfl

/-- **Indentation determines the parent.**  The lines of a body that is read as a tree, but for
    those of blanks, have one node each, in their order, from number 1 on.  A node hangs from the
    last one before it that is indented less, or from the root if there is none.  It is among the
    children of that node, once, and of no other; children are listed in their order. -/
theorem readAll_nearest {lines : List Line} {tree : Hierarchy}
    (h : (start.readAll lines).2 = .ok tree) :
    tree.nodes.map (fun n => (n.name, n.indent)) =
      (lines.filter (!·.isEmpty)).map (fun l => (String.ofList (trim l.text), indentOf l.text)) ∧
    (∀ i, 0 < i → i < tree.size → ∃ p, tree.parent? i = some p ∧
      tree.Nearest (tree.indent i) i p ∧
      ∀ q, (tree.children q).count i = if q = p then 1 else 0) ∧
    ∀ q, (tree.children q).Pairwise (· < ·) := by
  have hnested := nested_of_readAll h
  refine ⟨nodes_of_readAll h, fun i hpos hi => ?_,
    fun q => Hierarchy.pairwise_lt_childrenFrom q 1 tree.nodes⟩
  · obtain ⟨p, hp⟩ := Hierarchy.exists_parent? hpos hi
    have hnearest := hnested i p hp
    refine ⟨p, hp, hnearest, fun q => ?_⟩
    have hmem : i ∈ tree.children q ↔ q = p := by
      rw [Hierarchy.mem_children_iff, hp, Option.some.injEq]
      constructor
      · exact fun hq => hq.2.symm
      · rintro rfl
        exact ⟨hnearest.before, rfl⟩
    rw [(Hierarchy.nodup_children tree q).count]
    simp only [hmem]

/-- A body whose first line is not the one that is indented least, with tabs and wide blanks. -/
def raggedLines : List Line :=
  numbered 2 ["    A".toList, "  B".toList, "\tB".toList, "      C".toList, "\u2003D".toList,
    "  ".toList, "      E ".toList, "\u2003\u2003F".toList]

/-- The wide blank before `D` takes three bytes, so `D` hangs from the second `B`; the nearest line
    above `D` is indented more. -/
theorem readAll_nearest_ragged :
    ∃ tree, (start.readAll raggedLines).2 = .ok tree ∧
      tree.nodes.map (·.parent) = [0, 0, 0, 3, 3, 5, 5] ∧
      tree.nodes.map (fun n => (n.name, n.indent)) =
        [("A", 4), ("B", 2), ("B", 1), ("C", 6), ("D", 3), ("E", 6), ("F", 6)] ∧
      tree.Nearest (tree.indent 5) 5 3 ∧
      ∀ q, (tree.children q).count 5 = if q = 3 then 1 else 0 := by
  have hread : (start.readAll raggedLines).2 = .ok
      ⟨[⟨"A", 4, 0⟩, ⟨"B", 2, 0⟩, ⟨"B", 1, 0⟩, ⟨"C", 6, 3⟩, ⟨"D", 3, 3⟩, ⟨"E", 6, 5⟩,
        ⟨"F", 6, 5⟩]⟩ := by
    decide +kernel
  obtain ⟨p, hp, hnearest, hcount⟩ := (readAll_nearest hread).2.1 5 (by decide) (by decide)
  obtain rfl : 3 = p := Option.some.inj hp
  exact ⟨_, hread, rfl, rfl, hnearest, hcount⟩

end Growth

end ViewSheet
