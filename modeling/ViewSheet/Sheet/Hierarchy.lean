/-
  Hierarchies: the tree of view names that a declaration owns.

  1. **Program**: the nodes below the root are kept in the order in which they were added, each with
     the number of its parent.  Node 0 is the root, node `i + 1` is entry `i`.  A node's children
     are the later nodes that name it as their parent, so links cannot disagree.  `walk` goes
     through the tree depth first, `breadthFirst` level by level, `outline` prints it.

  2. **Specification**: a child's number is greater than its parent's and names a node
     (`lt_of_mem_children`, `lt_size_of_mem_children`); this is why walking ends.
-/

namespace ViewSheet

/-- The name of the node that every hierarchy hangs from. -/
def rootName : String := "$root"

/-- A named place in a hierarchy.  The indent is that of its source line and is of use only while
    the source is read. -/
structure Node where
  name : String
  indent : Nat
  parent : Nat
deriving DecidableEq, Repr

/-- The nodes below the root, in the order in which they were added. -/
structure Hierarchy where
  nodes : List Node
deriving DecidableEq, Repr

namespace Hierarchy

/-! ## Building and asking -/

/-- The root alone. -/
def empty : Hierarchy := ⟨[]⟩

/-- Adds a node under `parent`. -/
def add (h : Hierarchy) (parent : Nat) (name : String) (indent : Nat) : Hierarchy :=
  ⟨h.nodes ++ [⟨name, indent, parent⟩]⟩

/-- How many nodes there are, the root included. -/
def size (h : Hierarchy) : Nat := h.nodes.length + 1

/-- The node with this number, unless it is the root. -/
def node? (h : Hierarchy) : Nat → Option Node
  | 0 => none
  | i + 1 => h.nodes[i]?

/-- The name of a node. -/
def nameOf (h : Hierarchy) (i : Nat) : String :=
  match h.node? i with
  | some n => n.name
  | none => rootName

/-- The parent of a node; the root has none. -/
def parent? (h : Hierarchy) (i : Nat) : Option Nat := (h.node? i).map (·.parent)

/-- Of the nodes numbered from `i` on, those whose parent is the earlier node `parent`. -/
def childrenFrom (parent : Nat) : Nat → List Node → List Nat
  | _, [] => []
  | i, n :: rest =>
    if n.parent = parent ∧ parent < i then i :: childrenFrom parent (i + 1) rest
    else childrenFrom parent (i + 1) rest

/-- The children of a node, in the order in which they were added. -/
def children (h : Hierarchy) (i : Nat) : List Nat := childrenFrom i 1 h.nodes

/-- The last of the nodes with this name, numbered from `i` on. -/
def findFrom (name : String) : Nat → List Node → Option Nat
  | _, [] => none
  | i, n :: rest => match findFrom name (i + 1) rest with
    | some j => some j
    | none => if n.name = name then some i else none

/-- The node that was last added under this name. -/
def find? (h : Hierarchy) (name : String) : Option Nat :=
  match findFrom name 1 h.nodes with
  | some i => some i
  | none => if name = rootName then some 0 else none

/-- Whether a node below the root has this name. -/
def mentions (h : Hierarchy) (name : String) : Bool := h.nodes.any fun n => n.name == name

/-! ## Children come after their parents -/

theorem mem_childrenFrom {parent i c : Nat} {nodes : List Node}
    (h : c ∈ childrenFrom parent i nodes) : parent < c ∧ c < i + nodes.length := by
  induction nodes generalizing i with
  | nil => simp [childrenFrom] at h
  | cons n rest ih =>
    simp only [childrenFrom] at h
    split at h
    · rename_i hn
      rcases List.mem_cons.1 h with rfl | h
      · exact ⟨hn.2, by simp⟩
      · have := ih h
        exact ⟨this.1, by simp; omega⟩
    · have := ih h
      exact ⟨this.1, by simp; omega⟩

theorem lt_of_mem_children {h : Hierarchy} {i c : Nat} (hc : c ∈ h.children i) : i < c :=
  (mem_childrenFrom hc).1

theorem lt_size_of_mem_children {h : Hierarchy} {i c : Nat} (hc : c ∈ h.children i) :
    c < h.size := by
  have := (mem_childrenFrom hc).2
  simpa [size, Nat.add_comm] using this

/-! ## Going through the tree -/

/-- What hangs below node `i`, depth first, each node with its depth; the children of `i` stand at
    `depth`. -/
def walkFrom (h : Hierarchy) (depth i : Nat) : List (Nat × Nat) :=
  (h.children i).attach.flatMap fun ⟨c, _⟩ => (c, depth) :: walkFrom h (depth + 1) c
termination_by h.size - i
decreasing_by
  rename_i hc
  have := lt_of_mem_children hc
  have := lt_size_of_mem_children hc
  omega

/-- Every node below the root with its depth, parents before children; top-level nodes have depth
    0. -/
def walk (h : Hierarchy) : List (Nat × Nat) := h.walkFrom 0 0

/-- The nodes of a level and of the levels under it, down to the given number of levels. -/
def levels (h : Hierarchy) : Nat → List Nat → List Nat
  | 0, _ => []
  | more + 1, level => level ++ levels h more (level.flatMap h.children)

/-- Every node below the root, level by level.  There are no more levels than nodes. -/
def breadthFirst (h : Hierarchy) : List Nat := h.levels h.nodes.length (h.children 0)

/-- Two spaces for each level of depth. -/
def indentation (depth : Nat) : String := String.ofList (List.replicate (2 * depth) ' ')

/-- The names below the root, one a line, indented by their depth. -/
def outline (h : Hierarchy) : String :=
  String.join (h.walk.map fun (i, depth) => indentation depth ++ h.nameOf i ++ "\n")

end Hierarchy

end ViewSheet
