/-
  Telling: what gets into the journal beside the results.

  1. **Specification**: `reportsIn` picks the reports out of events.  A setter is mute if it tells
     of none, whatever else it tells (`Setter.Mute`); all stock setters are
     (`Catalogue.mute_stock`).

  2. **Documents**: parsing gives warnings and no reports (`reportsIn_parse`).

  3. **Worlds**: what happens in a world is added at the end of its journal.  Building, configuring
     and wiring add no reports if all setters are mute (`TellsOn`).  Reports are left to those who
     pass errors on.
-/
import ViewSheet.Proofs.Session
import ViewSheet.Proofs.StockSetters

namespace ViewSheet

open Text

/-! ## Reports among events -/

/-- The report that an event hands over. -/
def Event.report? : Event → Option String
  | .report text => some text
  | _ => none

/-- The reports among events. -/
def reportsIn (events : List Event) : List String := events.filterMap Event.report?

theorem reportsIn_append (events more : List Event) :
    reportsIn (events ++ more) = reportsIn events ++ reportsIn more :=
  List.filterMap_append

/-! ## Documents -/

theorem reportsIn_setProperty (d : Declaration) (key value : String) (line : Nat) :
    reportsIn (d.setProperty key value line).1 = [] := by
  unfold Declaration.setProperty
  cases d.property? key <;> rfl

theorem reportsIn_setHierarchy (d : Declaration) (h : Hierarchy) :
    reportsIn (d.setHierarchy h).1 = [] := by
  unfold Declaration.setHierarchy
  cases d.hierarchy <;> rfl

theorem reportsIn_applyAll (d : Declaration) (assignments : List Assignment) :
    reportsIn (Assignment.applyAll d assignments).1 = [] := by
  induction assignments generalizing d with
  | nil => rfl
  | cons a rest ih =>
    rw [Assignment.applyAll]
    dsimp only
    rw [reportsIn_append, ih, List.append_nil]
    exact reportsIn_setProperty d _ _ _

theorem reportsIn_apply (d : Declaration) (body : Body) : reportsIn (body.apply d).1 = [] := by
  cases body with
  | setters assignments => exact reportsIn_applyAll d assignments
  | hierarchy h => exact reportsIn_setHierarchy d h

theorem reportsIn_readAll (g : Growth) (lines : List Line) :
    reportsIn (g.readAll lines).1 = [] := by
  induction lines generalizing g with
  | nil => rfl
  | cons l rest ih =>
    rw [Growth.readAll]
    dsimp only
    split
    · exact ih g
    · split
      · rfl
      · dsimp only
        rw [reportsIn_append, ih, List.append_nil]
        split <;> rfl

theorem reportsIn_read (lines : List Line) : reportsIn (Body.read lines).1 = [] := by
  cases lines with
  | nil => rfl
  | cons first rest =>
    unfold Body.read
    dsimp only
    split
    · rfl
    · exact reportsIn_readAll .start _

theorem reportsIn_stateAll {reading : List Event} (hreading : reportsIn reading = []) (body : Body)
    (doc : Document) (names : List String) :
    reportsIn (Block.stateAll reading body doc names).1 = [] := by
  induction names generalizing doc with
  | nil => rfl
  | cons name rest ih =>
    rw [Block.stateAll]
    dsimp only
    rw [reportsIn_append, reportsIn_append, hreading, ih, List.append_nil]
    exact reportsIn_apply _ body

theorem reportsIn_applyBlock (b : Block) (doc : Document) : reportsIn (b.apply doc).1 = [] := by
  unfold Block.apply
  split
  · rfl
  · split
    · rfl
    · have hread := reportsIn_read b.statements
      split
      · rename_i h
        rw [h] at hread
        exact hread
      · rename_i h
        rw [h] at hread
        exact reportsIn_stateAll hread _ doc _

theorem reportsIn_applyBlocks (doc : Document) (blocks : List Block) :
    reportsIn (applyBlocks doc blocks).events = [] := by
  induction blocks generalizing doc with
  | nil => rfl
  | cons b rest ih =>
    have hblock := reportsIn_applyBlock b doc
    unfold applyBlocks
    split
    · rename_i h
      rw [h] at hblock
      exact hblock
    · rename_i h
      rw [h] at hblock
      rw [reportsIn_append, hblock, ih]
      rfl

/-- **Parsing reports nothing**: what it tells besides its result are warnings. -/
theorem reportsIn_parse (source identifier : String) :
    reportsIn (parse source identifier).1 = [] := by
  have hinto : reportsIn (parseInto (.empty identifier) source).events = [] := by
    unfold parseInto
    dsimp only
    split
    · rfl
    · exact reportsIn_applyBlocks _ _
  unfold parse
  dsimp only
  split <;> exact hinto

/-! ## Setters -/

/-- A setter that tells of no report. -/
def Setter.Mute (s : Setter) : Prop :=
  ∀ turn v value, reportsIn (s.handOver turn v value).1 = []

namespace ViewClass

variable {V α : Type} (cls : ViewClass V) (name : String) (kind : Kind α)

theorem mute_property (change : V → α → V) : (cls.property name kind change).setter.Mute := by
  intro turn v value
  cases turn with
  | construction =>
    simp only [Setter.handOver, Registration.setter, property, onConstruction, List.foldl_cons,
      List.foldl_nil, Setter.withHook]
    split <;> rfl
  | attached around => rfl

theorem mute_attachedProperty {change : Surroundings → V → α → List Event × Except Error Unit × V}
    (hchange : ∀ around p x, reportsIn (change around p x).1 = []) :
    (cls.attachedProperty name kind change).setter.Mute := by
  intro turn v value
  cases turn with
  | construction => rfl
  | attached around =>
    simp only [Setter.handOver, Registration.setter, attachedProperty, onAttached, List.foldl_cons,
      List.foldl_nil, Setter.withHook]
    split
    · exact hchange around _ _
    · rfl

end ViewClass

theorem reportsIn_matchSize (around : Surroundings) (c : Container) (name : String) :
    reportsIn (matchSize around c name).1 = [] := by
  unfold matchSize
  split
  · rfl
  · split <;> rfl

theorem reportsIn_attachAccessory (around : Surroundings) (t : TextField) (name : String) :
    reportsIn (attachAccessory around t name).1 = [] := by
  unfold attachAccessory
  split <;> rfl

namespace Catalogue

/-- No setter of the catalogue tells of a report. -/
def Mute (c : Catalogue) : Prop := c.Keeps fun _ s => s.Mute

open ViewClass in
/-- **No stock setter tells of a report.** -/
theorem mute_stock : stock.Mute :=
  keeps_stock (forall_stockProperties_of_property mute_property
    (mute_attachedProperty _ _ _ reportsIn_matchSize)
    (mute_attachedProperty _ _ _ reportsIn_attachAccessory))

theorem reportsIn_chain (c : Catalogue) (name : String) : reportsIn (c.chain name).1 = [] := by
  unfold chain
  dsimp only
  split <;> rfl

theorem Mute.receive {c : Catalogue} (h : c.Mute) (property : String) (turn : Turn)
    (cursor : Cursor) (v : View) : reportsIn (c.receive property turn cursor v).events = [] := by
  have hfound : ∀ s, ((c.tablesFor v.className).2.findSome? fun t => t.setters.get? property) =
      some s → s.Mute := fun _ hs => Keeps.setter? h hs
  have hchain : reportsIn (c.tablesFor v.className).1 = [] := c.reportsIn_chain v.className
  unfold Catalogue.receive
  dsimp only
  rw [reportsIn_append, hchain, receiveIn_eq]
  split
  · rename_i s hs
    unfold Setter.execute
    split
    · rfl
    · exact hfound s hs turn v _
  · rfl

end Catalogue

/-! ## Worlds -/

/-- What has happened in between stands at the end of the journal, and holds no reports if the
    setters tell of none. -/
def TellsOn (c : Catalogue) (a b : World) : Prop :=
  ∃ told, b.journal = a.journal ++ told ∧ (c.Mute → reportsIn told = [])

namespace TellsOn

variable {c : Catalogue}

theorem refl (w : World) : TellsOn c w w := ⟨[], (List.append_nil _).symm, fun _ => rfl⟩

theorem trans {a b d : World} (h : TellsOn c a b) (k : TellsOn c b d) : TellsOn c a d := by
  obtain ⟨told, hab, hmute⟩ := h
  obtain ⟨more, hbd, hmuteToo⟩ := k
  refine ⟨told ++ more, by rw [hbd, hab, List.append_assoc], fun hc => ?_⟩
  rw [reportsIn_append, hmute hc, hmuteToo hc, List.append_nil]

theorem tell {a b : World} (h : TellsOn c a b) {events : List Event}
    (hevents : c.Mute → reportsIn events = []) : TellsOn c a (b.tell events) :=
  h.trans ⟨events, rfl, hevents⟩

/-- The journal alone counts. -/
theorem of_journal {a b d : World} (h : TellsOn c a b) (hjournal : d.journal = b.journal) :
    TellsOn c a d := by
  obtain ⟨told, hab, hmute⟩ := h
  exact ⟨told, hjournal.trans hab, hmute⟩

/-- What was told has been told. -/
theorem journal {a b : World} (h : TellsOn c a b) : a.journal <+: b.journal := by
  obtain ⟨told, hab, -⟩ := h
  exact ⟨told, hab.symm⟩

theorem runs : Scene.Runs (TellsOn c) := ⟨refl, trans⟩

end TellsOn

namespace Scene

variable (s : Scene)

theorem tellsOn_applyKey (phase : Phase) (d : Declaration) (id : ViewId) (key : String)
    (w : World) : TellsOn s.definition.catalogue w (s.applyKey phase d id key w).2 := by
  have hreceipt : ∀ p v, s.definition.catalogue.Mute →
      reportsIn (s.receipt phase id key p w v).events = [] := fun p v h => h.receive key _ _ v
  rcases s.applyKey_cases phase d id key w with
    ⟨-, h⟩ | ⟨p, v, -, -, ⟨-, h⟩ | ⟨e, -, h⟩⟩
  · rw [h]
    exact .refl w
  · rw [h]
    exact ((TellsOn.refl w).of_journal rfl).tell (hreceipt p v)
  · rw [h]
    exact ((TellsOn.refl w).of_journal rfl).tell (hreceipt p v)

theorem tellsOn_applyEach (phase : Phase) (ds : List Declaration) (w : World) :
    TellsOn s.definition.catalogue w (s.applyEach phase ds w).2 :=
  applyEach_rel TellsOn.runs (fun d _ id _ => s.tellsOn_applyKey phase d id) w

theorem tellsOn_reapply (changed : List String) (ds : List Declaration) (w : World) :
    TellsOn s.definition.catalogue w (s.reapply changed ds w).2 :=
  reapply_rel TellsOn.runs (fun phase d _ id _ => s.tellsOn_applyKey phase d id) w

theorem reportsIn_classFor (name : String) : reportsIn (s.classFor name).1 = [] := by
  unfold classFor
  split
  · rfl
  · split <;> rfl

theorem tellsOn_buildAs (name className : String) (w : World) :
    TellsOn s.definition.catalogue w (s.buildAs name className w).2 := by
  have hwalk := s.definition.catalogue.reportsIn_chain className
  unfold buildAs Catalogue.isSubclass
  dsimp only
  split
  · exact ((TellsOn.refl w).tell fun _ => hwalk).tell fun _ => rfl
  · split
    · exact ((TellsOn.refl w).tell fun _ => hwalk).tell fun _ => rfl
    · exact ((TellsOn.refl w).tell fun _ => hwalk).of_journal rfl

theorem tellsOn_buildName (name : String) (w : World) :
    TellsOn s.definition.catalogue w (s.buildName name w).2 := by
  unfold buildName
  split
  · exact (TellsOn.refl w).tell fun _ => rfl
  · split
    · exact .refl w
    · exact ((TellsOn.refl w).tell fun _ => s.reportsIn_classFor name).trans
        (s.tellsOn_buildAs name _ _)

theorem definition_buildName (name : String) (w : World) :
    (s.buildName name w).1.definition = s.definition := by
  obtain ⟨w₁, -, ⟨-, h⟩ | ⟨-, -, v, -, h⟩⟩ := s.buildName_cases name w <;> rw [h]

theorem tellsOn_buildNames (names : List String) (w : World) :
    (buildNames names s w).1.definition = s.definition ∧
      TellsOn s.definition.catalogue w (buildNames names s w).2 := by
  induction names generalizing s w with
  | nil => exact ⟨rfl, .refl w⟩
  | cons name rest ih =>
    obtain ⟨hdefinition, hrest⟩ := ih (s.buildName name w).1 (s.buildName name w).2
    rw [definition_buildName] at hdefinition hrest
    exact ⟨hdefinition, (s.tellsOn_buildName name w).trans hrest⟩

theorem tellsOn_wireNode (node : Nat) (w : World) :
    TellsOn s.definition.catalogue w (s.wireNode node w) := by
  unfold wireNode
  dsimp only
  split
  · exact .refl w
  · split
    · exact .refl w
    · split
      · split
        · exact (TellsOn.refl w).tell fun _ => rfl
        · exact (TellsOn.refl w).of_journal rfl
      · exact .refl w

theorem tellsOn_settle (first : Bool) (w : World) :
    TellsOn s.definition.catalogue w (s.settle first w).2 :=
  settle_rel TellsOn.runs (fun phase d id _ => s.tellsOn_applyKey phase d id) s.tellsOn_wireNode
    first w

/-- **Loading reports nothing**, unless a setter does. -/
theorem tellsOn_load (d : Definition) (root : String) (data : DataBindings)
    (views : List (String × ViewId)) (w : World) :
    TellsOn d.catalogue w (load d root data views w).2 := by
  cases hfound : (d.document.get? root).bind (·.hierarchy) with
  | none =>
    unfold load
    rw [hfound]
    exact .refl w
  | some hierarchy =>
    obtain ⟨hdefinition, hbuild⟩ := (bare d root hierarchy data views).tellsOn_buildNames
      (bare d root hierarchy data views).nodeNames w
    rcases hbuilt : buildNames (bare d root hierarchy data views).nodeNames
      (bare d root hierarchy data views) w with ⟨t, w₁⟩
    rw [hbuilt] at hdefinition hbuild
    have hpass := t.tellsOn_applyEach .construction t.configured w₁
    rw [hdefinition] at hpass
    have hboth := hbuild.trans hpass
    rw [load_eq hfound data views w hbuilt]
    split
    · rename_i h
      rw [applyAll] at h
      rw [h] at hboth
      exact hboth
    · rename_i h
      rw [applyAll] at h
      rw [h] at hboth
      exact hboth

end Scene

end ViewSheet
