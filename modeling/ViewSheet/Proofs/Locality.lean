/-
  Locality: which views a scene looks at, and which it changes.

  1. **Specification**: two worlds *agree* on some views if they have as many views and these views
     are equal (`AgreeOn`).  They *mirror* each other on them if besides nothing else hangs below
     these views (`Mirrored`).

  2. **Reads**: a setter sees the view that it is given, and of the views around it only those under
     the names of its scene (`Setter.Discreet`).  Wiring searches below such views.  So in two
     worlds that mirror each other on the views of a scene, a call gives the same, changes the scene
     alike, and leaves worlds that mirror each other (`mirrored_attach`, `mirrored_update`).

  3. **Writes**: a call changes no view that its scene does not stand for, and adds none
     (`Outside.agreeOn_attach`, `Outside.agreeOn_update`).
-/
import ViewSheet.Proofs.Hanging
import ViewSheet.Proofs.Listening

namespace ViewSheet

/-! ## What setters see -/

/-- Nothing that shows under a name differs. -/
structure Surroundings.Same (a b : Surroundings) : Prop where
  bindings : b.bindings = a.bindings
  busy : b.busy = a.busy
  views : ∀ name id, a.bindings.bound? name = some id → b.store.get? id = a.store.get? id

/-- A setter that sees of its surroundings only what shows under a name. -/
def Setter.Discreet (s : Setter) : Prop :=
  ∀ a b, a.Same b → ∀ v value, s.handOver (.attached b) v value = s.handOver (.attached a) v value

namespace ViewClass

variable {V α : Type} (cls : ViewClass V) (name : String) (kind : Kind α)

theorem discreet_property (change : V → α → V) :
    (cls.property name kind change).setter.Discreet :=
  fun _ _ _ _ _ => rfl

theorem discreet_attachedProperty
    {change : Surroundings → V → α → List Event × Except Error Unit × V}
    (hchange : ∀ a b, a.Same b → ∀ p x, change b p x = change a p x) :
    (cls.attachedProperty name kind change).setter.Discreet := by
  intro a b h v value
  simp only [Setter.handOver, Registration.setter, attachedProperty, onAttached, List.foldl_cons,
    List.foldl_nil, Setter.withHook, hchange a b h]

end ViewClass

theorem matchSize_congr {a b : Surroundings} (h : a.Same b) (c : Container) (name : String) :
    matchSize b c name = matchSize a c name := by
  unfold matchSize Surroundings.lookup ViewBindings.lookup
  rw [h.bindings]
  cases hbound : a.bindings.bound? name with
  | none => rfl
  | some id =>
    dsimp only
    unfold Surroundings.inspect
    rw [h.busy, h.views name id hbound]

theorem attachAccessory_congr {a b : Surroundings} (h : a.Same b) (t : TextField) (name : String) :
    attachAccessory b t name = attachAccessory a t name := by
  unfold attachAccessory Surroundings.lookup
  rw [h.bindings]

namespace Catalogue

open ViewClass in
/-- **Every stock setter is discreet.** -/
theorem discreet_stock : stock.Keeps fun _ s => s.Discreet := by
  exact keeps_stock (forall_stockProperties_of_property discreet_property
    (discreet_attachedProperty _ _ _ fun _ _ h => matchSize_congr h)
    (discreet_attachedProperty _ _ _ fun _ _ h => attachAccessory_congr h))

/-- What comes of handing a property over does not depend on what shows under no name. -/
theorem receive_discreet {c : Catalogue} (hdiscreet : c.Keeps fun _ s => s.Discreet)
    {a b : Surroundings} (h : a.Same b) (property : String) (cursor : Cursor) (v : View) :
    c.receive property (.attached b) cursor v = c.receive property (.attached a) cursor v := by
  have hfound : ∀ s, ((c.tablesFor v.className).2.findSome? fun t => t.setters.get? property) =
      some s → s.Discreet := fun _ hs => hdiscreet.setter? hs
  unfold receive
  rcases htables : c.tablesFor v.className with ⟨events, tables⟩
  rw [htables] at hfound
  dsimp only
  rw [receiveIn_eq, receiveIn_eq]
  cases hs : tables.findSome? fun t => t.setters.get? property with
  | none => rfl
  | some s =>
    dsimp only
    unfold Setter.execute
    split
    · rfl
    · rw [hfound s hs a b h]

end Catalogue

/-! ## Worlds that agree -/

/-- There are as many views, and some of them are equal. -/
structure AgreeOn (R : ViewId → Prop) (a b : World) : Prop where
  size : b.store.size = a.store.size
  views : ∀ id, R id → b.store.get? id = a.store.get? id

/-- Some views are equal in both worlds, and nothing but them hangs below them. -/
structure Mirrored (R : ViewId → Prop) (a b : World) : Prop extends AgreeOn R a b where
  enclosed : ∀ id, R id → ∀ child ∈ a.store.subviews id, R child

section
variable {R : ViewId → Prop} {a b c : World}

theorem AgreeOn.refl (w : World) : AgreeOn R w w := ⟨rfl, fun _ _ => rfl⟩

theorem AgreeOn.trans (h : AgreeOn R a b) (k : AgreeOn R b c) : AgreeOn R a c :=
  ⟨k.size.trans h.size, fun id hid => (k.views id hid).trans (h.views id hid)⟩

theorem runs_agreeOn : Scene.Runs (AgreeOn R) := ⟨.refl, .trans⟩

theorem AgreeOn.subviews (h : AgreeOn R a b) {id : ViewId} (hid : R id) :
    b.store.subviews id = a.store.subviews id :=
  ViewStore.subviews_congr (h.views id hid)

/-- Only the one world has changed, and not where the two mirror each other. -/
theorem Mirrored.of_agreeOn (h : Mirrored R a b) (k : AgreeOn R a c) : Mirrored R c b where
  size := h.size.trans k.size.symm
  views := fun id hid => (h.views id hid).trans (k.views id hid).symm
  enclosed := fun id hid child hchild => by
    rw [k.subviews hid] at hchild
    exact h.enclosed id hid child hchild

/-- A new view with nothing attached, in both worlds. -/
theorem Mirrored.addView (h : Mirrored R a b) {v : View} (hv : v.subviews = []) :
    Mirrored R (a.addView v) (b.addView v) := by
  have hfresh : b.store.fresh = a.store.fresh := congrArg ViewId.mk h.size
  refine ⟨⟨?_, fun id hid => ?_⟩, fun id hid child hchild => ?_⟩
  · rw [World.store_addView, World.store_addView, ViewStore.size_add, ViewStore.size_add, h.size]
  · by_cases hnew : id = a.store.fresh
    · subst hnew
      rw [World.store_addView, World.store_addView, ViewStore.get?_add_fresh, ← hfresh,
        ViewStore.get?_add_fresh]
    · rw [World.store_addView, World.store_addView, ViewStore.get?_add_of_ne _ _ hnew,
        ViewStore.get?_add_of_ne _ _ (hfresh ▸ hnew), h.views id hid]
  · rw [World.store_addView, ViewStore.subviews_add hv] at hchild
    exact h.enclosed id hid child hchild

/-- A view that both worlds have is changed in both, and keeps its list. -/
theorem Mirrored.setView (h : Mirrored R a b) {id : ViewId} (hid : R id) {old v : View}
    (hold : a.store.get? id = some old) (hv : v.subviews = old.subviews) :
    Mirrored R (a.setView id v) (b.setView id v) := by
  have hset : (a.setView id v).store.get? id = some v := ViewStore.get?_set_self hold v
  have hother : ∀ (w : World) other, other ≠ id →
      (w.setView id v).store.get? other = w.store.get? other :=
    fun w other hne => ViewStore.get?_set_of_ne w.store v hne
  refine ⟨⟨?_, fun other ho => ?_⟩, fun other ho child hchild => ?_⟩
  · rw [World.store_setView, World.store_setView, ViewStore.size_set, ViewStore.size_set, h.size]
  · by_cases hne : other = id
    · subst hne
      rw [hset]
      exact ViewStore.get?_set_self ((h.views other hid).trans hold) v
    · rw [hother a other hne, hother b other hne, h.views other ho]
  · refine h.enclosed other ho child ?_
    by_cases hne : other = id
    · subst hne
      rw [ViewStore.subviews_of_get? hset, hv] at hchild
      rw [ViewStore.subviews_of_get? hold]
      exact hchild
    · rw [ViewStore.subviews_congr (hother a other hne)] at hchild
      exact hchild

/-- What is told is of no account. -/
theorem Mirrored.tell (h : Mirrored R a b) (told toldAlso : List Event) :
    Mirrored R (a.tell told) (b.tell toldAlso) :=
  ⟨⟨h.size, h.views⟩, h.enclosed⟩

theorem Mirrored.enter (h : Mirrored R a b) (x : Execution) : Mirrored R (a.enter x) (b.enter x) :=
  ⟨⟨h.size, h.views⟩, h.enclosed⟩

end

namespace Scene

/-! ## What a scene looks at -/

/-- All views that the scene stands for are among some. -/
def Within (s : Scene) (R : ViewId → Prop) : Prop := ∀ name id, s.bound? name = some id → R id

theorem Within.withContainer {s : Scene} {R : ViewId → Prop} (hs : s.Within R)
    {container : ViewId} (hcontainer : R container) : (s.withContainer container).Within R := by
  intro name id hid
  rw [bound?_withContainer] at hid
  split at hid
  · rw [Option.some.injEq] at hid
    exact hid ▸ hcontainer
  · exact hs name id hid

/-- A step gives the same in worlds that mirror each other, and leaves such worlds. -/
def Local (R : ViewId → Prop) (f : World → Except Error Unit × World) : Prop :=
  ∀ a b, Mirrored R a b → (f b).1 = (f a).1 ∧ Mirrored R (f a).2 (f b).2

theorem local_skip (R : ViewId → Prop) : Local R fun w => (.ok (), w) := fun _ _ h => ⟨rfl, h⟩

/-- One step after the other, unless the first one fails. -/
theorem Local.andThen {R : ViewId → Prop} {f g both : World → Except Error Unit × World}
    (hf : Local R f) (hg : Local R g)
    (hfailed : ∀ w e w', f w = (.error e, w') → both w = (.error e, w'))
    (hthen : ∀ w w', f w = (.ok (), w') → both w = g w') : Local R both := by
  intro a b h
  obtain ⟨hresult, hafter⟩ := hf a b h
  rcases ha : f a with ⟨e | ⟨⟩, a'⟩ <;> rcases hb : f b with ⟨e' | ⟨⟩, b'⟩ <;>
    rw [ha, hb] at hresult hafter
  · rw [hfailed a e a' ha, hfailed b e' b' hb]
    exact ⟨hresult, hafter⟩
  · cases hresult
  · cases hresult
  · rw [hthen a a' ha, hthen b b' hb]
    exact hg a' b' hafter

section
variable {R : ViewId → Prop} {s : Scene} (hs : s.Within R)
  (hdiscreet : s.definition.catalogue.Keeps fun _ t => t.Discreet)
  (hkeeps : s.definition.catalogue.KeepsSubviews)

include hs hdiscreet in
/-- The same receipt comes of it. -/
theorem receipt_congr {a b : World} (h : Mirrored R a b) (phase : Phase) (id : ViewId)
    (key : String) (p : PropertyText) (v : View) :
    s.receipt phase id key p b v = s.receipt phase id key p a v := by
  cases phase with
  | construction => rfl
  | attached =>
    have hsame : Surroundings.Same ⟨s.bindings, a.store, id⟩ ⟨s.bindings, b.store, id⟩ :=
      ⟨rfl, rfl, fun name other hother => h.views other (hs name other hother)⟩
    exact Catalogue.receive_discreet hdiscreet hsame key _ v

include hs hdiscreet hkeeps

theorem local_applyKey (phase : Phase) (d : Declaration) {id : ViewId} (hid : R id)
    (key : String) : Local R (s.applyKey phase d id key) := by
  intro a b h
  unfold applyKey
  rw [h.views id hid]
  cases d.filled? key s.data with
  | none => exact ⟨rfl, h⟩
  | some p =>
    cases hv : a.store.get? id with
    | none => exact ⟨rfl, h⟩
    | some v =>
      have hreceipt := receipt_congr hs hdiscreet h phase id key p v
      unfold receipt at hreceipt
      dsimp only
      rw [turn_enter, turn_enter, hreceipt]
      have hafter := ((h.enter ⟨phase, d.name, key, p.value⟩).setView hid hv
        (hkeeps.subviews_receive key (s.turn phase a id) (.start p.value p.line) v)).tell
      cases (s.definition.catalogue.receive key (s.turn phase a id) (.start p.value p.line)
        v).result with
      | ok _ => exact ⟨rfl, hafter _ _⟩
      | error e => exact ⟨rfl, hafter _ _⟩

theorem local_applyKeys (phase : Phase) (d : Declaration) {id : ViewId} (hid : R id)
    (keys : List String) : Local R (s.applyKeys phase d id keys) := by
  induction keys with
  | nil => exact local_skip R
  | cons key rest ih =>
    refine (local_applyKey hs hdiscreet hkeeps phase d hid key).andThen ih
      (fun w e w' h => ?_) fun w w' h => ?_
    · rw [applyKeys, h]
    · rw [applyKeys, h]

theorem local_applyDeclaration (phase : Phase) (d : Declaration) (keys : List String) :
    Local R (s.applyDeclaration phase d keys) := by
  intro a b h
  unfold applyDeclaration
  cases hid : s.bound? d.name with
  | none => exact local_skip R a b h
  | some id => exact local_applyKeys hs hdiscreet hkeeps phase d (hs d.name id hid) keys a b h

theorem local_applyEach (phase : Phase) (ds : List Declaration) :
    Local R (s.applyEach phase ds) := by
  induction ds with
  | nil => exact local_skip R
  | cons d rest ih =>
    refine (local_applyDeclaration hs hdiscreet hkeeps phase d d.setterKeys).andThen ih
      (fun w e w' h => ?_) fun w w' h => ?_
    · rw [applyEach, h]
    · rw [applyEach, h]

theorem local_reapplyKeys (d : Declaration) (keys : List String) :
    Local R (s.reapplyKeys d keys) := by
  have hfirst := local_applyDeclaration hs hdiscreet hkeeps .construction d keys
  cases hstate : s.state with
  | attached =>
    refine hfirst.andThen (local_applyDeclaration hs hdiscreet hkeeps .attached d keys)
      (fun w e w' h => ?_) fun w w' h => ?_
    · rw [reapplyKeys, h]
    · rw [reapplyKeys, h, hstate]
  | viewsConstructed =>
    refine hfirst.andThen (local_skip R) (fun w e w' h => ?_) fun w w' h => ?_
    · rw [reapplyKeys, h]
    · rw [reapplyKeys, h, hstate]

theorem local_reapply (changed : List String) (ds : List Declaration) :
    Local R (s.reapply changed ds) := by
  induction ds with
  | nil => exact local_skip R
  | cons d rest ih =>
    refine (local_reapplyKeys hs hdiscreet hkeeps d (affectedKeys d changed)).andThen ih
      (fun w e w' h => ?_) fun w w' h => ?_
    · rw [reapply, h]
    · rw [reapply, h]

theorem local_configureRoot : Local R s.configureRoot := by
  intro a b h
  unfold configureRoot
  cases s.definition.document.get? s.root with
  | none => exact local_skip R a b h
  | some d =>
    exact local_applyDeclaration hs hdiscreet hkeeps .construction d d.setterKeys a b h

end

/-! ## Wiring -/

end Scene

namespace ViewStore

/-- What hangs below a view is found where it hangs alike. -/
theorem reaches_congr {R : ViewId → Prop} {s t : ViewStore}
    (hsame : ∀ id, R id → t.subviews id = s.subviews id)
    (henclosed : ∀ id, R id → ∀ child ∈ s.subviews id, R child) (target : ViewId) (levels : Nat)
    {view : ViewId} (hview : R view) :
    t.reaches target levels view = s.reaches target levels view := by
  induction levels generalizing view with
  | zero => rfl
  | succ n ih =>
    rw [reaches, reaches, hsame view hview, Bool.eq_iff_iff, Bool.or_eq_true, Bool.or_eq_true,
      List.any_eq_true, List.any_eq_true]
    refine or_congr_right (exists_congr fun below => and_congr_right fun hbelow => ?_)
    rw [ih (henclosed view hview below hbelow)]

theorem get?_attach_of_ne (s : ViewStore) {parent other : ViewId} (child : ViewId)
    (h : other ≠ parent) : (s.attach parent child).get? other = s.get? other := by
  unfold attach
  split
  · exact get?_set_of_ne s _ h
  · rfl

theorem get?_attach_self (s : ViewStore) (parent child : ViewId) :
    (s.attach parent child).get? parent = (s.get? parent).map (·.addSubview child) := by
  unfold attach
  cases hget : s.get? parent with
  | none => exact hget
  | some v => exact get?_set_self hget _

theorem mem_subviews_attach {s : ViewStore} {parent child id below : ViewId}
    (h : below ∈ (s.attach parent child).subviews id) : below ∈ s.subviews id ∨ below = child := by
  by_cases hparent : s.Has parent
  · rw [subviews_attach hparent] at h
    split at h
    · rename_i hsame
      subst hsame
      exact (List.mem_append.mp h).imp_right List.mem_singleton.mp
    · exact Or.inl h
  · -- nothing is attached to a view that is not there
    have hnone : s.get? parent = none :=
      Option.eq_none_iff_forall_ne_some.mpr fun v hv => hparent (has_iff.mpr ⟨v, hv⟩)
    rw [attach, hnone] at h
    exact Or.inl h

end ViewStore

section
variable {R : ViewId → Prop} {a b : World}

theorem Mirrored.holds (h : Mirrored R a b) {view : ViewId} (hview : R view) (target : ViewId) :
    b.store.holds view target = a.store.holds view target := by
  unfold ViewStore.holds
  rw [h.size]
  exact ViewStore.reaches_congr (fun _ hid => h.subviews hid) h.enclosed target a.store.size hview

/-- The same view is attached to another in both worlds. -/
theorem Mirrored.attach (h : Mirrored R a b) (parent : ViewId) {child : ViewId}
    (hchild : R child) :
    Mirrored R { a with store := a.store.attach parent child }
      { b with store := b.store.attach parent child } := by
  refine ⟨⟨?_, fun id hid => ?_⟩, fun id hid below hbelow => ?_⟩
  · exact (ViewStore.size_attach _ _ _).trans (h.size.trans (ViewStore.size_attach _ _ _).symm)
  · show (b.store.attach parent child).get? id = (a.store.attach parent child).get? id
    by_cases hne : id = parent
    · subst hne
      rw [ViewStore.get?_attach_self, ViewStore.get?_attach_self, h.views id hid]
    · rw [ViewStore.get?_attach_of_ne _ _ hne, ViewStore.get?_attach_of_ne _ _ hne, h.views id hid]
  · rcases ViewStore.mem_subviews_attach hbelow with hold | rfl
    · exact h.enclosed id hid below hold
    · exact hchild

end

namespace Scene

section
variable {R : ViewId → Prop} {s : Scene} (hs : s.Within R)
include hs

theorem mirrored_wireNode {a b : World} (h : Mirrored R a b) (node : Nat) :
    Mirrored R (s.wireNode node a) (s.wireNode node b) := by
  unfold wireNode
  dsimp only
  cases s.hierarchy.parent? node with
  | none => exact h
  | some p =>
    dsimp only
    split
    · exact h
    · cases s.bound? (s.hierarchy.nameOf p) with
      | none => exact h
      | some parent =>
        cases hchild : s.bound? (s.hierarchy.nameOf node) with
        | none => exact h
        | some child =>
          -- both worlds see the same below the child
          dsimp only
          rw [h.holds (hs _ child hchild)]
          split
          · exact h.tell _ _
          · exact h.attach parent (hs _ child hchild)

theorem mirrored_wireNodes {a b : World} (h : Mirrored R a b) (nodes : List Nat) :
    Mirrored R (s.wireNodes nodes a) (s.wireNodes nodes b) := by
  induction nodes generalizing a b with
  | nil => exact h
  | cons node rest ih => exact ih (mirrored_wireNode hs h node)

end

/-! ## What comes of a call -/

section
variable {R : ViewId → Prop} {s : Scene} (hs : s.Within R)
  (hdiscreet : s.definition.catalogue.Keeps fun _ t => t.Discreet)
  (hkeeps : s.definition.catalogue.KeepsSubviews)
include hs hdiscreet hkeeps

theorem local_settle (first : Bool) : Local R (s.settle first) := by
  have hsecond : Local R fun w =>
      if first then s.applyAll .attached (s.wire w) else (.ok (), w) := by
    cases first with
    | false => exact local_skip R
    | true =>
      exact fun a b h => local_applyEach hs hdiscreet hkeeps .attached s.configured _ _
        (mirrored_wireNodes hs h s.hierarchy.breadthFirst)
  refine (local_configureRoot hs hdiscreet hkeeps).andThen hsecond (fun w e w' h => ?_)
    fun w w' h => ?_
  · rw [settle, h]
  · rw [settle, h]

/-- **Updating gives the same in worlds that mirror each other.** -/
theorem mirrored_update (change : DataBindings → DataBindings) {a b : World}
    (h : Mirrored R a b) : (s.update change b).1 = (s.update change a).1 ∧
      Mirrored R (s.update change a).2.2 (s.update change b).2.2 := by
  have hdata : (s.withData (change s.data)).Within R := hs
  obtain ⟨hresult, hafter⟩ := local_reapply hdata hdiscreet hkeeps
    (s.data.changedKeys (change s.data)) s.configured a b h
  rw [update_eq, update_eq]
  split
  · exact ⟨rfl, h⟩
  · exact ⟨congrArg updating hresult, hafter.tell _ _⟩

/-- **Attaching gives the same in worlds that mirror each other**, if the container is one of the
    views that they do so on. -/
theorem mirrored_attach {container : ViewId} (hcontainer : R container) {a b : World}
    (h : Mirrored R a b) : (s.attach container b).1 = (s.attach container a).1 ∧
      (s.attach container b).2.1 = (s.attach container a).2.1 ∧
      Mirrored R (s.attach container a).2.2 (s.attach container b).2.2 := by
  obtain ⟨hresult, hafter⟩ :=
    local_settle (hs.withContainer hcontainer) hdiscreet hkeeps (s.bound? rootName).isNone a b h
  rw [attach_eq, attach_eq]
  rcases ha : (s.withContainer container).settle (s.bound? rootName).isNone a with ⟨ra, a'⟩
  rcases hb : (s.withContainer container).settle (s.bound? rootName).isNone b with ⟨rb, b'⟩
  rw [ha, hb] at hresult hafter
  obtain rfl : rb = ra := hresult
  exact ⟨rfl, rfl, hafter.tell _ _⟩

end

/-! ## What a scene changes -/

/-- None of the views that the scene stands for is among some. -/
def Outside (s : Scene) (R : ViewId → Prop) : Prop := s.Within fun id => ¬ R id

section
variable {R : ViewId → Prop} {s : Scene} (hs : s.Outside R)

theorem agreeOn_applyKey (phase : Phase) (d : Declaration) {id : ViewId} (hid : ¬ R id)
    (key : String) (w : World) : AgreeOn R w (s.applyKey phase d id key w).2 := by
  refine ⟨s.size_applyKey phase d id key w, fun other hother => ?_⟩
  have hne : other ≠ id := by
    rintro rfl
    exact hid hother
  exact s.get?_applyKey_of_ne phase d hne key w

include hs

theorem Outside.agreeOn_wireNode (node : Nat) (w : World) : AgreeOn R w (s.wireNode node w) := by
  rcases s.wireNode_cases node w with
    ⟨-, h⟩ | ⟨parent, child, hlink, ⟨-, hstore, -⟩ | ⟨-, h⟩⟩
  · rw [h]
    exact .refl w
  · exact ⟨by rw [hstore], fun _ _ => by rw [hstore]⟩
  · rw [h]
    refine ⟨ViewStore.size_attach _ _ _, fun id hid => ViewStore.get?_attach_of_ne _ _ ?_⟩
    rintro rfl
    obtain ⟨p, -, -, hparent, -⟩ := link?_eq_some_iff.mp hlink
    exact hs _ _ hparent hid

/-- **Updating changes no view that the scene does not stand for.** -/
theorem Outside.agreeOn_update (change : DataBindings → DataBindings) (w : World) :
    AgreeOn R w (s.update change w).2.2 := by
  have hdata : (s.withData (change s.data)).Outside R := hs
  have h : AgreeOn R w ((s.withData (change s.data)).reapply
      (s.data.changedKeys (change s.data)) s.configured w).2 :=
    reapply_rel runs_agreeOn
      (fun phase d _ id hid => agreeOn_applyKey phase d (hdata d.name id hid)) w
  rw [update_eq]
  split
  · exact .refl w
  · exact ⟨h.size, h.views⟩

/-- **Attaching changes no view but those of the scene and its container.** -/
theorem Outside.agreeOn_attach {container : ViewId} (hcontainer : ¬ R container) (w : World) :
    AgreeOn R w (s.attach container w).2.2 := by
  have hbound : (s.withContainer container).Outside R := Within.withContainer hs hcontainer
  have h := settle_rel runs_agreeOn (fun phase d id hid => agreeOn_applyKey phase d
    (hbound d.name id hid)) hbound.agreeOn_wireNode (s.bound? rootName).isNone w
  rw [attach_eq]
  exact ⟨h.size, h.views⟩

end

end Scene

end ViewSheet
