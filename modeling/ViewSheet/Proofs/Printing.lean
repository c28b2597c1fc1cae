/-
  Printing: what the studio prints, line by line.

  1. **Program**: a run of the studio compiles a file, loads one of its hierarchies, hangs it into a
     container and prints the tree, and prints it again after the rebindings.  `shown` are the
     scenes that it prints.

  2. **Specification**: `treeLines` has a line for each node, in the order of the numbers, which is
     that of the source.  It knows nothing of walking through the tree.

  3. **Invariant** (`Sound`): a scene that is shown has the tree that the file declares, and all
     views that are there keep to their lines.

  4. **Result** (`runArguments_line_per_node`): each printed tree has one line for each node.
-/
import ViewSheet.Proofs.OneLine
import ViewSheet.Proofs.Outline
import ViewSheet.Proofs.Rebuild
import ViewSheet.Studio.Run

namespace ViewSheet

open Text

/-! ## Lines of a source -/

/-- No line break stands on a line. -/
theorem isBreak_of_mem_sourceLines {source : List Char} {l : Line} (h : l ∈ sourceLines source) :
    ∀ c ∈ l.text, isBreak c = false := by
  obtain ⟨raw, hraw, hcode⟩ := List.mem_map.mp (text_mem_of_mem_numbered h)
  obtain ⟨blanks, hsplit, -⟩ := trimEnd_append_blanks (before commentMark raw)
  intro c hc
  rw [← hcode, codeOf] at hc
  have hbefore : c ∈ before commentMark raw := hsplit ▸ List.mem_append_left blanks hc
  have hline : c ∈ raw := (isPrefix_before commentMark raw).subset hbefore
  exact no_break_of_mem_splitLines source raw hraw c hline

namespace Block

theorem header_mem_sourceLines {source : List Char} {b : Block}
    (hb : b ∈ (split (sourceLines source)).2) : b.header ∈ sourceLines source := by
  rw [← flatten_split (sourceLines source)]
  exact List.mem_append_right _ (List.mem_flatMap.mpr ⟨b, hb, List.mem_cons_self⟩)

/-- A name in a header is a piece of it. -/
theorem subset_of_mem_names {b : Block} {names : List String} (hnames : b.names = .ok names)
    {name : String} (hname : name ∈ names) : name.toList ⊆ b.header.text := by
  rw [Block.names] at hnames
  split at hnames
  · cases hnames
  · rw [Except.ok.injEq] at hnames
    rw [← hnames, List.map_map] at hname
    obtain ⟨piece, hpiece, rfl⟩ := List.mem_map.mp hname
    obtain ⟨left, right, hsplit, -⟩ := mem_pieces.mp hpiece
    intro c hc
    rw [Function.comp, String.toList_ofList] at hc
    have hinside : c ∈ b.header.text.dropLast := by
      rw [hsplit]
      exact List.mem_append_left _ (List.mem_append_right _ ((isInfix_trim piece).subset hc))
    exact List.mem_of_mem_dropLast hinside

/-- The names in the header of a block stand on one line. -/
theorem oneLine_of_mem_names {source : List Char} {b : Block}
    (hb : b ∈ (split (sourceLines source)).2) {names : List String} (hnames : b.names = .ok names)
    {name : String} (hname : name ∈ names) : OneLine name := by
  intro hfeed
  have hbreak := isBreak_of_mem_sourceLines (header_mem_sourceLines hb) '\n'
    (subset_of_mem_names hnames hname hfeed)
  exact absurd hbreak (by decide)

end Block

namespace Studio

/-! ## The lines of a tree -/

/-- The name that is printed for a node; the root goes by the name of its declaration. -/
def shownName (s : Scene) (i : Nat) : String := if i = 0 then s.root else s.hierarchy.nameOf i

/-- The line of a node: two spaces for each link above it, its name, and what its view is like. -/
def treeLine (m : Moment) (i : Nat) : List Char :=
  List.replicate (2 * m.scene.hierarchy.depth i) ' ' ++ (shownName m.scene i).toList ++
    ' ' :: (describe m.scene m.world (shownName m.scene i)).toList

/-- The lines of all nodes, in the order of their numbers. -/
def treeLines (m : Moment) : List (List Char) :=
  (List.range m.scene.hierarchy.size).map (treeLine m)

theorem toList_nodeLine (s : Scene) (w : World) (depth : Nat) (name : String) :
    (nodeLine s w depth name).toList = List.replicate (2 * depth) ' ' ++ name.toList ++
      ' ' :: (describe s w name).toList ++ ['\n'] := by
  rw [nodeLine, String.toList_append, String.toList_append, String.toList_append,
    String.toList_append, Hierarchy.indentation, String.toList_ofList]
  simp

/-- If links do not cross, the tree is written line by line. -/
theorem toList_tree {m : Moment} (hun : m.scene.hierarchy.Uncrossed) :
    (tree m.scene m.world).toList = written (treeLines m) := by
  have hroot : (nodeLine m.scene m.world 0 m.scene.root).toList = treeLine m 0 ++ ['\n'] := by
    rw [toList_nodeLine, treeLine, shownName, if_pos rfl, Hierarchy.depth_zero]
  have hnode : ∀ i ∈ List.range' 1 m.scene.hierarchy.nodes.length,
      (nodeLine m.scene m.world (m.scene.hierarchy.depth i - 1 + 1)
        (m.scene.hierarchy.nameOf i)).toList = treeLine m i ++ ['\n'] := by
    intro i hi
    rw [List.mem_range'_1] at hi
    obtain ⟨p, hp⟩ := Hierarchy.exists_parent? (h := m.scene.hierarchy) (i := i) (by omega)
      (by rw [Hierarchy.size]; omega)
    -- only the root has no parent, so the level of the walk is the depth
    have hdepth : m.scene.hierarchy.depth i - 1 + 1 = m.scene.hierarchy.depth i := by
      rw [hun.depth_eq hp]
      omega
    rw [toList_nodeLine, treeLine, shownName, if_neg (by omega), hdepth]
  rw [tree, String.toList_append, hroot, String.toList_join, hun.walk_eq, List.map_map,
    List.flatMap_map, written, treeLines, List.range_eq_range', Hierarchy.size, List.range'_succ,
    List.map_cons, List.flatMap_cons, List.flatMap_map]
  exact congrArg _ (List.flatMap_congr hnode)

/-! ## What a run prints -/

/-- The change of the bindings that is asked for. -/
def rebind (a : Arguments) (data : DataBindings) : DataBindings :=
  a.rebindings.foldl (fun data (k, v) => data.set k v) data

/-- What is printed after the rebindings. -/
def shownAgain (a : Arguments) (s : Scene) (w : World) : List Moment :=
  if a.rebindings.isEmpty then []
  else match s.update (rebind a) w with
    | (.error _, _, _) => []
    | (.ok (), s, w) => [⟨s, w⟩]

/-- What is printed of a definition: its scene hung into a new container, and then once more. -/
def shownOf (a : Arguments) (d : Definition) (w : World) : List Moment :=
  match d.loadTemplated a.hierarchy (.ofList a.bindings) w with
  | (.error _, _) => []
  | (.ok s, w) =>
    match s.attach w.store.fresh (w.addView ViewClass.container.blank) with
    | (.error _, _, _) => []
    | (.ok (), s, w) => ⟨s, w⟩ :: shownAgain a s w

/-- The workshop of the studio.  It has the stock classes, and nobody listens. -/
def workshop : Workshop := { Workshop.stock with listener := none }

/-- The world once the file has been compiled. -/
def compiledWorld (a : Arguments) (content : FileContent) : World :=
  World.empty.tell (workshop.buildFile a.input content).1

/-- The scenes that a run prints. -/
def shown (a : Arguments) (content : FileContent) : List Moment :=
  match (workshop.buildFile a.input content).2 with
  | .error _ => []
  | .ok d => shownOf a d ((compiledWorld a content).tell [.log .info (compiledMessage d)])

/-- The trees of scenes, with an empty line between them. -/
def trees (moments : List Moment) : String :=
  "\n".intercalate (moments.map fun m => tree m.scene m.world)

/-- The run that has printed these scenes.  If it succeeds it has printed all that was asked for. -/
structure Prints (a : Arguments) (o : Outcome) (moments : List Moment) : Prop where
  stdout : o.stdout = trees moments
  complete : o.status = 0 → moments.length = if a.rebindings.isEmpty then 1 else 2

theorem prints_nothing {a : Arguments} (w : World) (threshold : Threshold) (doing : String)
    (e : Error) : Prints a (.failure "" w threshold doing e) [] :=
  ⟨rfl, fun h => nomatch h⟩

theorem runRebindings_eq (a : Arguments) (threshold : Threshold) (s : Scene) (w : World) :
    runRebindings a threshold s w =
      if a.rebindings.isEmpty then .success (tree s w) w threshold
      else match s.update (rebind a) w with
        | (.error e, _, w') => .failure (tree s w) w' threshold "applying rebindings" e
        | (.ok (), s', w') => .success (tree s w ++ "\n" ++ tree s' w') w' threshold :=
  rfl

theorem prints_runRebindings (a : Arguments) (threshold : Threshold) (s : Scene) (w : World) :
    Prints a (runRebindings a threshold s w) (⟨s, w⟩ :: shownAgain a s w) := by
  rw [runRebindings_eq, shownAgain]
  cases hnone : a.rebindings.isEmpty with
  | true => exact ⟨String.intercalate_singleton.symm, fun _ => by rw [hnone]; rfl⟩
  | false =>
    rcases s.update (rebind a) w with ⟨e | _, s', w'⟩
    · exact ⟨String.intercalate_singleton.symm, fun h => nomatch h⟩
    · refine ⟨?_, fun _ => by rw [hnone]; rfl⟩
      show tree s w ++ "\n" ++ tree s' w' = "\n".intercalate [tree s w, tree s' w']
      rw [String.intercalate_cons_cons, String.intercalate_singleton]

theorem prints_runDefinition (a : Arguments) (threshold : Threshold) (d : Definition) (w : World) :
    Prints a (runDefinition a threshold d w) (shownOf a d w) := by
  unfold runDefinition shownOf
  rcases d.loadTemplated a.hierarchy (.ofList a.bindings) w with ⟨e | s, w⟩
  · exact prints_nothing w threshold _ e
  · dsimp only
    rcases s.attach w.store.fresh (w.addView ViewClass.container.blank) with ⟨e | _, s, w⟩
    · exact prints_nothing w threshold _ e
    · exact prints_runRebindings a threshold s w

theorem runArguments_eq (a : Arguments) (content : FileContent) :
    runArguments a content =
      match (workshop.buildFile a.input content).2 with
      | .error e => .failure "" (compiledWorld a content) (Threshold.parse a.logLevel)
          s!"compiling {a.input}" e
      | .ok d => runDefinition a (Threshold.parse a.logLevel) d
          ((compiledWorld a content).tell [.log .info (compiledMessage d)]) :=
  rfl

/-- **A run prints the trees of the scenes that it shows.** -/
theorem prints_runArguments (a : Arguments) (content : FileContent) :
    Prints a (runArguments a content) (shown a content) := by
  rw [runArguments_eq, shown]
  cases (workshop.buildFile a.input content).2 with
  | error e => exact prints_nothing _ _ _ e
  | ok d => exact prints_runDefinition a _ d _

/-! ## What is known of a printed scene -/

/-- The tree is the one that a file declares under a name. -/
def Declares (content : FileContent) (name : String) (tree : Hierarchy) : Prop :=
  ∃ bytes source identifier doc d, content = .bytes bytes ∧ decodeUtf8 bytes = .ok source ∧
    (parse (String.ofList source) identifier).2 = .ok doc ∧ doc.get? name = some d ∧
    d.hierarchy = some tree

/-- A declared tree has a node for each line of a block with the name above it, in their order, and
    can be printed. -/
theorem Declares.exists_block {content : FileContent} {name : String} {tree : Hierarchy}
    (h : Declares content name tree) :
    OneLine name ∧ tree.Printable ∧ ∃ bytes source, content = .bytes bytes ∧
      decodeUtf8 bytes = .ok source ∧ ∃ b ∈ (Block.split (sourceLines source)).2, ∃ names,
        b.names = .ok names ∧ name ∈ names ∧
        tree.names = b.statements.map fun l => String.ofList (trim l.text) := by
  obtain ⟨bytes, source, identifier, doc, d, rfl, hdecode, hparse, hd, htree⟩ := h
  obtain ⟨b, hb, names, hnames, hname, hfull, hread⟩ :=
    planted_of_parse hparse name d tree hd htree
  rw [String.toList_ofList] at hb
  obtain ⟨hlines, hprintable⟩ := printable_of_read hb hfull hread
  exact ⟨Block.oneLine_of_mem_names hb hnames hname, hprintable, bytes, source, rfl, hdecode, b,
    hb, names, hnames, hname, hlines⟩

/-- A scene of the stock classes with the tree that was asked for, in a world of views that keep to
    their lines. -/
structure Sound (a : Arguments) (content : FileContent) (m : Moment) : Prop where
  catalogue : m.scene.definition.catalogue = .stock
  root : m.scene.root = a.hierarchy
  declared : Declares content a.hierarchy m.scene.hierarchy
  terse : m.world.All View.Terse

/-- A definition with the stock classes, and with no other trees than the file declares. -/
structure MadeFrom (content : FileContent) (d : Definition) : Prop where
  catalogue : d.catalogue = .stock
  declares : ∀ name tree, (d.document.get? name).bind (·.hierarchy) = some tree →
    Declares content name tree

theorem madeFrom_of_buildFile {path : String} {content : FileContent} {d : Definition}
    (h : (workshop.buildFile path content).2 = .ok d) : MadeFrom content d := by
  cases content with
  | missing => cases h
  | unreadable why => cases h
  | bytes bytes =>
    rw [Workshop.buildFile, Workshop.buildBytes, Workshop.compileBytes] at h
    cases hdecode : decodeUtf8 bytes with
    | error fault =>
      rw [hdecode] at h
      cases h
    | ok source =>
      rw [hdecode] at h
      unfold Workshop.compile at h
      dsimp only at h
      split at h
      · cases h
      · rename_i events doc hparse
        cases h
        refine ⟨rfl, fun name tree htree => ?_⟩
        obtain ⟨decl, hd, htree⟩ := Option.bind_eq_some_iff.mp htree
        exact ⟨bytes, source, _, doc, decl, rfl, hdecode, by rw [hparse], hd, htree⟩

namespace Sound

variable {a : Arguments} {content : FileContent}

theorem of_load {d : Definition} (hd : MadeFrom content d) {w w' : World}
    (hw : w.All View.Terse) {s : Scene}
    (h : d.loadTemplated a.hierarchy (.ofList a.bindings) w = (.ok s, w')) :
    Sound a content ⟨s, w'⟩ := by
  rw [Definition.loadTemplated, Definition.reporting_ok] at h
  have hupholds : d.catalogue.Upholds View.Terse := hd.catalogue ▸ Catalogue.upholds_stock
  have hall := Scene.all_load hupholds a.hierarchy (.ofList a.bindings) [] hw
  rw [h] at hall
  obtain ⟨tree, w₁, hfound, hbuilds, -⟩ :=
    Scene.exists_builds_of_load (List.forall_mem_nil _) h
  have htree : Declares content a.hierarchy s.hierarchy :=
    hbuilds.hierarchy_eq ▸ hd.declares _ tree hfound
  exact ⟨hbuilds.definition_eq ▸ hd.catalogue, hbuilds.root_eq, htree, hall⟩

/-- **A call keeps a scene sound**, whether or not it succeeds. -/
theorem run {m : Moment} (hm : Sound a content m) {c : Call} (hbrings : c.Brings View.Terse) :
    Sound a content (c.run m).2 := by
  have hsteady := c.steady_run m
  refine ⟨hsteady.definition ▸ hm.catalogue, hsteady.root.trans hm.root,
    hsteady.hierarchy ▸ hm.declared, Call.all_run ?_ hbrings hm.terse⟩
  rw [hm.catalogue]
  exact Catalogue.upholds_stock

theorem of_mem_shownAgain {s : Scene} {w : World} (h : Sound a content ⟨s, w⟩) {m : Moment}
    (hm : m ∈ shownAgain a s w) : Sound a content m := by
  have hrun := h.run (c := .update (rebind a)) trivial
  rw [Call.run] at hrun
  unfold shownAgain at hm
  split at hm
  · cases hm
  · split at hm
    · cases hm
    · rename_i hupdate
      rw [hupdate] at hrun
      rw [List.mem_singleton.mp hm]
      exact hrun

theorem of_mem_shownOf {d : Definition} (hd : MadeFrom content d) {w : World}
    (hw : w.All View.Terse) {m : Moment} (hm : m ∈ shownOf a d w) : Sound a content m := by
  unfold shownOf at hm
  split at hm
  · cases hm
  · rename_i s w₁ hload
    have hcontainer : View.Terse ViewClass.container.blank :=
      View.terse_iff.mpr (List.forall_mem_nil _)
    have hcreated := (of_load hd hw hload).run
      (c := .create ViewClass.container.blank) hcontainer
    have hrun := hcreated.run (c := .attach w₁.store.fresh) trivial
    rw [Call.run, Call.run] at hrun
    split at hm
    · cases hm
    · rename_i hattach
      dsimp only at hrun
      rw [hattach] at hrun
      rcases List.mem_cons.mp hm with rfl | hm
      · exact hrun
      · exact hrun.of_mem_shownAgain hm

/-- **Whatever is shown is sound.** -/
theorem of_mem_shown {m : Moment} (hm : m ∈ shown a content) : Sound a content m := by
  unfold shown at hm
  split at hm
  · cases hm
  · rename_i d hbuild
    have hnone : ((compiledWorld a content).tell [.log .info (compiledMessage d)]).All
        View.Terse := World.all_empty
    exact of_mem_shownOf (madeFrom_of_buildFile hbuild) hnone hm

end Sound

/-! ## The printed tree -/

/-- Names and descriptions keep to their lines, and so does the line of a node. -/
theorem Sound.unbroken {a : Arguments} {content : FileContent} {m : Moment}
    (hm : Sound a content m) : ∀ line ∈ treeLines m, '\n' ∉ line := by
  obtain ⟨hroot, hprintable, -⟩ := hm.declared.exists_block
  intro line hline
  obtain ⟨i, hi, rfl⟩ := List.mem_map.mp hline
  have hname : OneLine (shownName m.scene i) := by
    rw [shownName]
    split
    · rw [hm.root]
      exact hroot
    · rename_i hpos
      rw [List.mem_range] at hi
      have hsolid := (hprintable.named _ (Hierarchy.nameOf_mem (by omega) hi)).solid
      exact fun hfeed => absurd (hsolid '\n' hfeed) (by decide)
  have hdescribed : OneLine (describe m.scene m.world (shownName m.scene i)) := by
    unfold describe
    split
    · rename_i v hv
      obtain ⟨id, -, hv⟩ := Option.bind_eq_some_iff.mp hv
      obtain ⟨hclass, hsummary⟩ := hm.terse id v hv
      exact .append (.append (.append (by decide) hclass) (by decide)) hsummary
    · decide
  have hindent : '\n' ∉ List.replicate (2 * m.scene.hierarchy.depth i) ' ' := fun hfeed =>
    absurd (List.eq_of_mem_replicate hfeed) (by decide)
  rw [treeLine, List.mem_append, List.mem_append, List.mem_cons]
  rintro ((hfeed | hfeed) | hfeed | hfeed)
  · exact hindent hfeed
  · exact hname hfeed
  · exact absurd hfeed (by decide)
  · exact hdescribed hfeed

/-- **The printed tree has one line for each node.**  A run that succeeds prints the tree once, and
    once more if bindings were changed; a run that fails has printed what it had come to.  Each
    printed tree is the one that the file declares under the name asked for.  It comes out as a line
    for the root, with the name of the declaration, and then a line for each line of the block, in
    their order.  No name and no description goes on to a second line: no view has a summary with a
    line feed in it, here or with any host, whatever stands in sheets and data. -/
theorem runArguments_line_per_node (a : Arguments) (content : FileContent) :
    (runArguments a content).stdout = trees (shown a content) ∧
    ((runArguments a content).status = 0 →
      (shown a content).length = if a.rebindings.isEmpty then 1 else 2) ∧
    (∀ m ∈ shown a content,
      m.scene.root = a.hierarchy ∧ Declares content a.hierarchy m.scene.hierarchy ∧
      (∃ bytes source, content = .bytes bytes ∧ decodeUtf8 bytes = .ok source ∧
        ∃ b ∈ (Block.split (sourceLines source)).2, ∃ names, b.names = .ok names ∧
          a.hierarchy ∈ names ∧
          m.scene.hierarchy.names = b.statements.map fun l => String.ofList (trim l.text)) ∧
      (tree m.scene m.world).toList = written (treeLines m) ∧
      (treeLines m).length = m.scene.hierarchy.size ∧
      (∀ line ∈ treeLines m, '\n' ∉ line) ∧
      ∀ id v, m.world.store.get? id = some v → OneLine v.summary) ∧
    ∀ past h, History ⟨[], .empty⟩ past h → (∀ e ∈ past, e.deed.Modest) →
      ∀ id v, h.world.store.get? id = some v → OneLine v.summary := by
  obtain ⟨hstdout, hcomplete⟩ := prints_runArguments a content
  refine ⟨hstdout, hcomplete, fun m hm => ?_, fun past h hpast hmodest id v hv => ?_⟩
  · have hsound := Sound.of_mem_shown hm
    obtain ⟨-, hprintable, hblock⟩ := hsound.declared.exists_block
    exact ⟨hsound.root, hsound.declared, hblock, toList_tree hprintable.uncrossed,
      by rw [treeLines, List.length_map, List.length_range], hsound.unbroken,
      fun id v hv => (hsound.terse id v hv).2⟩
  · have hstart : Host.All View.Terse ⟨[], .empty⟩ := ⟨World.all_empty, List.forall_mem_nil _⟩
    exact ((hpast.terse hstart hmodest) id v hv).2

/-- A title and a node without a view below it. -/
def feedSheet : String :=
  "Main:\n  Title\n    Gone\nTitle:\n  .class = Label\n  .font = #\x7bx\x7d\n"
    ++ "  .text = #\x7bx\x7d \"\nGone:\n  .class = Control\n"

/-- The bytes of `feedSheet`. -/
def feedContent : FileContent := .bytes (feedSheet.toList.map fun c => UInt8.ofNat c.toNat)

/-- A run that binds a text with line feeds, and another one later. -/
def feedArguments : Arguments :=
  ⟨"feed", "Main", [("x", "\nA\n")], [("x", "B\n\n")], "error"⟩

/-- What the run prints. -/
def feedOutput : String :=
  "Main <Container> frame=(0, 0, 0, 0)\n"
    ++ "  Title <Label> frame=(0, 0, 0, 0) text=\"A\\n \\\"\" font=\"14 A\" color=#000000ff\n"
    ++ "    Gone <not built>\n\n"
    ++ "Main <Container> frame=(0, 0, 0, 0)\n"
    ++ "  Title <Label> frame=(0, 0, 0, 0) text=\"B\\n\\n \\\"\" font=\"14 B\" color=#000000ff\n"
    ++ "    Gone <not built>\n"

theorem runArguments_line_per_node_feed :
    ∃ first again, shown feedArguments feedContent = [first, again] ∧
      trees [first, again] = feedOutput ∧ first.scene.root = "Main" ∧
      (tree first.scene first.world).toList = written (treeLines first) ∧
      (∀ line ∈ treeLines first, '\n' ∉ line) ∧
      (tree again.scene again.world).toList = written (treeLines again) ∧
      (∀ line ∈ treeLines again, '\n' ∉ line) ∧
      OneLine (View.stock (.label { text := "A\n\"" })).summary := by
  have hrun : (runArguments feedArguments feedContent).status = 0 ∧
      (runArguments feedArguments feedContent).stdout = feedOutput := by
    decide +kernel
  obtain ⟨hstdout, hcomplete, hshown, hhosts⟩ :=
    runArguments_line_per_node feedArguments feedContent
  obtain ⟨first, again, hpair⟩ := List.length_eq_two.mp (hcomplete hrun.1)
  rw [hpair] at hstdout hshown
  obtain ⟨hroot, -, -, hfirst, -, hfeeds, -⟩ := hshown first List.mem_cons_self
  obtain ⟨-, -, -, hagain, -, hfeeds', -⟩ :=
    hshown again (List.mem_cons_of_mem first List.mem_cons_self)
  have hlabel : View.Terse (.stock (.label { text := "A\n\"" })) :=
    View.terse_iff.mpr (List.forall_mem_nil _)
  -- a host that makes a label of its own
  have hhost := hhosts _ _ (.deed .start (.create (.stock (.label { text := "A\n\"" }))) trivial)
    (List.forall_mem_singleton.mpr hlabel) ⟨0⟩ _ rfl
  exact ⟨first, again, hpair, hstdout.symm.trans hrun.2, hroot, hfirst, hfeeds, hagain, hfeeds',
    hhost⟩

end Studio

end ViewSheet
