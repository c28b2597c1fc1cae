/-
  The printed tree: one line for each declared node.

  A line gives the name of the node and the class and state of its view, if it has one.  The root
  stands first; the nodes below it are indented by two spaces for each level, in the order of the
  source.
-/
import ViewSheet.Scene.Lookup
import ViewSheet.View.Summary

namespace ViewSheet.Studio

/-- The class and state of the view under a name. -/
def describe (s : Scene) (w : World) (name : String) : String :=
  match (s.bound? name).bind w.store.get? with
  | some v => s!"<{v.className}> {v.summary}"
  | none => "<not built>"

/-- The line of one node. -/
def nodeLine (s : Scene) (w : World) (depth : Nat) (name : String) : String :=
  Hierarchy.indentation depth ++ name ++ " " ++ describe s w name ++ "\n"

/-- The tree of a scene. -/
def tree (s : Scene) (w : World) : String :=
  nodeLine s w 0 s.root ++ String.join (s.hierarchy.walk.map fun (node, depth) =>
    nodeLine s w (depth + 1) (s.hierarchy.nameOf node))

end ViewSheet.Studio
