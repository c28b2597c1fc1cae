/-
  Copying: sizes that are taken over one after the other.

  1. **Program**: with a look around, the property `matchSize` gives a view the size that another
     one has at this moment.  The declarations have their turns in a fixed order, each of them once,
     and no other property changes a size.

  2. **Specification**: a link is a name and the name whose size it takes over.  `copySizes` follows
     links from left to right, and knows of nothing but sizes by name.

  3. **The crux** (`copySizes_eq`, `SizeSettled.copySizes_congr`): a size that has been taken over
     stays, unless one of the two views is resized later.  If none is along all links that lead away
     from a name, each of them the only one for its view, then the order in which the links were
     followed makes no difference.

  4. **Result** (`copied_applyAll`): a pass that succeeds comes to following links.
-/
import ViewSheet.Proofs.References

namespace ViewSheet

open Text

/-! ## Links -/

/-- The name whose view lends its size, as the text of the property reads under the data. -/
def Declaration.sizeSource? (d : Declaration) (data : DataBindings) : Option String :=
  (d.filled? "matchSize" data).bind fun p => referred? p.value

/-- The name whose view lends its size to the view of a name. -/
def Definition.sizeSource? (d : Definition) (data : DataBindings) (name : String) :
    Option String :=
  (d.document.get? name).bind (·.sizeSource? data)

namespace Scene

/-- The size of the view under a name. -/
def sizeOf (s : Scene) (w : World) (name : String) : Option Vec2 :=
  (s.bound? name).bind fun id => (w.store.get? id).map (·.base.frame.size)

/-- The view of a name, under all of its names, takes over the size of another. -/
def copySize (s : Scene) (sizes : String → Option Vec2) (link : String × String) :
    String → Option Vec2 :=
  fun name => if s.bound? name = s.bound? link.1 then sizes link.2 else sizes name

/-- The sizes after links have been followed, from left to right. -/
def copySizes (s : Scene) (links : List (String × String)) (sizes : String → Option Vec2) :
    String → Option Vec2 :=
  links.foldl s.copySize sizes

/-- The link that the declaration of a name makes, if the name stands for a view. -/
def link (s : Scene) (name : String) : Option (String × String) :=
  if (s.bound? name).isSome then
    (s.definition.sizeSource? s.data name).map fun source => (name, source)
  else none

/-! ## Following links -/

section
variable {s : Scene} {links before after : List (String × String)} {m A name : String}
  {sizes : String → Option Vec2}

theorem copySizes_cons (l : String × String) :
    s.copySizes (l :: links) sizes = s.copySizes links (s.copySize sizes l) := rfl

theorem copySizes_append : s.copySizes (before ++ after) sizes =
    s.copySizes after (s.copySizes before sizes) :=
  List.foldl_append

/-- A view that no link is for keeps its size. -/
theorem copySizes_of_ne (h : ∀ l ∈ links, s.bound? l.1 ≠ s.bound? name) :
    s.copySizes links sizes name = sizes name := by
  induction links generalizing sizes with
  | nil => rfl
  | cons l rest ih =>
    rw [copySizes_cons, ih fun k hk => h k (.tail l hk), copySize,
      if_neg (Ne.symm (h l List.mem_cons_self))]

/-- The size that is taken over is the one that the other view has at this moment. -/
theorem copySizes_taken (hafter : ∀ l ∈ after, s.bound? l.1 ≠ s.bound? m) :
    s.copySizes (before ++ (m, A) :: after) sizes m = s.copySizes before sizes A := by
  rw [copySizes_append, copySizes_cons, copySizes_of_ne hafter, copySize, if_pos rfl]

/-- **A size that has been taken over stays** if neither view is resized later. -/
theorem copySizes_eq {l : String × String} (hname : s.bound? name = s.bound? l.1)
    (hafter : ∀ k ∈ after, s.bound? k.1 ≠ s.bound? name ∧ s.bound? k.1 ≠ s.bound? l.2) :
    s.copySizes (before ++ l :: after) sizes name =
      s.copySizes (before ++ l :: after) sizes l.2 := by
  rw [copySizes_append, copySizes_cons, copySizes_of_ne fun k hk => (hafter k hk).1,
    copySizes_of_ne fun k hk => (hafter k hk).2, copySize, copySize, if_pos hname, ite_self]

end

/-! ## Sizes that are settled -/

/-- No choice is left for the size under a name.  There is no link for its view, or just one, which
    goes to a view that is settled and is not resized later. -/
inductive SizeSettled (s : Scene) (links : List (String × String)) : String → Prop
  | untouched {name : String} (h : ∀ l ∈ links, s.bound? l.1 ≠ s.bound? name) :
      SizeSettled s links name
  | linked {name : String} {before after : List (String × String)} (l : String × String)
      (hsplit : links = before ++ l :: after) (hname : s.bound? name = s.bound? l.1)
      (hbefore : ∀ k ∈ before, s.bound? k.1 ≠ s.bound? name)
      (hafter : ∀ k ∈ after, s.bound? k.1 ≠ s.bound? name ∧ s.bound? k.1 ≠ s.bound? l.2)
      (source : SizeSettled s links l.2) : SizeSettled s links name

/-- Whether the size under a name is settled, as far as so many steps along the links tell. -/
def settles (s : Scene) (links : List (String × String)) : Nat → String → Bool
  | 0, _ => false
  | steps + 1, name =>
    match links.dropWhile fun l => s.bound? l.1 ≠ s.bound? name with
    | [] => true
    | l :: after =>
      (after.all fun k => s.bound? k.1 ≠ s.bound? name ∧ s.bound? k.1 ≠ s.bound? l.2) &&
        settles s links steps l.2

theorem sizeSettled_of_settles {s : Scene} {links : List (String × String)} {steps : Nat}
    {name : String} (h : s.settles links steps name = true) : s.SizeSettled links name := by
  induction steps generalizing name with
  | zero => cases h
  | succ steps ih =>
    rw [settles] at h
    have hsplit := List.takeWhile_append_dropWhile
      (p := fun l => decide (s.bound? l.1 ≠ s.bound? name)) (l := links)
    have hbefore := fun k => List.mem_takeWhile_imp
      (p := fun l => decide (s.bound? l.1 ≠ s.bound? name)) (l := links) (x := k)
    have hfirst := List.head?_dropWhile_not (fun l => decide (s.bound? l.1 ≠ s.bound? name)) links
    split at h
    · rename_i hnil
      exact .untouched fun l hl => of_decide_eq_true (List.dropWhile_eq_nil_iff.mp hnil l hl)
    · rename_i l after hcons
      rw [hcons] at hsplit hfirst
      rw [Bool.and_eq_true, List.all_eq_true] at h
      refine .linked l hsplit.symm ?_ (fun k hk => ?_) (fun k hk => ?_) (ih h.2)
      · exact (of_not_not (of_decide_eq_false hfirst)).symm
      · exact of_decide_eq_true (hbefore k hk)
      · exact of_decide_eq_true (h.1 k hk)

/-- **A settled size does not depend on the order of the links.**  It is enough that the same names
    stand for one view, and that there are the same links in both orders. -/
theorem SizeSettled.copySizes_congr {s t : Scene} {links links' : List (String × String)}
    (hbound : ∀ a b, t.bound? a = t.bound? b ↔ s.bound? a = s.bound? b)
    (hlinks : ∀ l, l ∈ links' ↔ l ∈ links) {sizes : String → Option Vec2} {name : String}
    (h : s.SizeSettled links name) (h' : t.SizeSettled links' name) :
    t.copySizes links' sizes name = s.copySizes links sizes name := by
  induction h with
  | untouched hnone =>
    rw [copySizes_of_ne hnone, copySizes_of_ne fun l hl hsame => ?_]
    exact hnone l ((hlinks l).mp hl) ((hbound _ _).mp hsame)
  | linked l hsplit hname hbefore hafter source ih =>
    have hl : l ∈ links := hsplit ▸ List.mem_append_right _ List.mem_cons_self
    cases h' with
    | untouched hnone => exact absurd ((hbound _ _).mpr hname.symm) (hnone l ((hlinks l).mpr hl))
    | linked l' hsplit' hname' hbefore' hafter' source' =>
      -- in both orders it is the only link for the view, so it is the same one
      have hsame : l' = l := by
        have hl' : l' ∈ links :=
          (hlinks l').mp (hsplit' ▸ List.mem_append_right _ List.mem_cons_self)
        have hview := ((hbound _ _).mp hname').symm
        rw [hsplit] at hl'
        rcases List.mem_append.mp hl' with hearlier | hl'
        · exact absurd hview (hbefore l' hearlier)
        · rcases List.mem_cons.mp hl' with hsame | hlater
          · exact hsame
          · exact absurd hview (hafter l' hlater).1
      subst hsame
      have hrest := ih source'
      rw [hsplit, hsplit'] at hrest ⊢
      rw [copySizes_eq hname' hafter', copySizes_eq hname hafter, hrest]

end Scene

/-! ## Which properties change sizes -/

/-- A setter that leaves sizes alone in the turn with a look around. -/
def Setter.KeepsSize (s : Setter) : Prop :=
  ∀ around v value,
    (s.handOver (.attached around) v value).2.2.base.frame.size = v.base.frame.size

/-- A property that is set at construction does nothing later. -/
theorem ViewClass.keepsSize_property {V α : Type} (cls : ViewClass V) (name : String)
    (kind : Kind α) (change : V → α → V) : (cls.property name kind change).setter.KeepsSize :=
  fun _ _ _ => rfl

/-- Noting an accessory leaves the size alone. -/
theorem keepsSize_accessory : (ViewClass.textField.attachedProperty "inputAccessoryView"
    .identifier attachAccessory).setter.KeepsSize := by
  intro around v value
  rcases ViewClass.handOver_attachedProperty .textField "inputAccessoryView" .identifier
    attachAccessory around v value with ⟨hidle, -⟩ | ⟨t, name, ht, -, hrun⟩
  · rw [hidle]
  · rw [hrun, attachAccessory]
    rcases v with ⟨⟨⟩⟩ | ⟨_, ⟨⟩, _⟩ <;> cases ht <;> split <;> rfl

/-- **Only `matchSize` changes a size with a look around**, and it has one setter. -/
theorem Catalogue.keepsSize_stock : stock.Keeps fun property s =>
    property = "matchSize" ∧
      s = (ViewClass.container.attachedProperty "matchSize" .identifier matchSize).setter ∨
    property ≠ "matchSize" ∧ s.KeepsSize := by
  refine keeps_stock (forall_stockProperties ?_ ?_ ?_ ?_ ?_ ?_) <;>
    simp only [containerProperties, controlProperties, labelProperties, buttonProperties,
      stackProperties, textFieldProperties, List.forall_mem_cons] <;>
    and_intros <;> first
      | exact Or.inr ⟨by decide, ViewClass.keepsSize_property _ _ _ _⟩
      | exact Or.inl ⟨rfl, trivial⟩
      | exact Or.inr ⟨by decide, keepsSize_accessory⟩
      | exact List.forall_mem_nil _

theorem Catalogue.size_receive {key : String} (hkey : key ≠ "matchSize") (around : Surroundings)
    (cursor : Cursor) (v : View) :
    (stock.receive key (.attached around) cursor v).view.base.frame.size = v.base.frame.size := by
  rcases stock.view_receive_cases key (.attached around) cursor v with h | ⟨s, value, hs, -, h⟩
  · rw [h]
  · rcases keepsSize_stock.setter? hs with ⟨hmatch, -⟩ | ⟨-, hkeeps⟩
    · exact absurd hmatch hkey
    · rw [h, hkeeps around v value]

/-- The property that takes over a size finds the other view, or the view itself. -/
theorem Catalogue.size_receive_matchSize {around : Surroundings} {p : PropertyText} {v : View}
    (h : (stock.receive "matchSize" (.attached around) (.start p.value p.line) v).result =
      .ok ()) :
    ∃ name id, referred? p.value = some name ∧ around.lookup name = .ok id ∧
      (stock.receive "matchSize" (.attached around) (.start p.value p.line)
          v).view.base.frame.size =
        match around.inspect id with
        | some other => other.base.frame.size
        | none => v.base.frame.size := by
  obtain ⟨s, -, hs, -⟩ := exists_setter_of_receive h
  rcases keepsSize_stock.setter? hs with ⟨-, rfl⟩ | ⟨hother, -⟩
  · rw [result_receive, hs] at h
    rw [view_receive, hs]
    dsimp only at h ⊢
    rw [ViewClass.result_attachedProperty ViewClass.container _ _ _ _ _ rfl,
      show Kind.identifier.scan = Cursor.identifier from rfl, identifier_start] at h
    rw [ViewClass.view_attachedProperty ViewClass.container _ _ _ _ _ rfl,
      show Kind.identifier.scan = Cursor.identifier from rfl, identifier_start]
    cases hname : referred? p.value with
    | none =>
      rw [hname] at h
      cases h
    | some name =>
      rw [hname] at h
      dsimp only at h ⊢
      rw [matchSize] at h ⊢
      cases hid : around.lookup name with
      | error e =>
        rw [hid] at h
        cases h
      | ok id =>
        refine ⟨name, id, rfl, hid, ?_⟩
        dsimp only
        cases around.inspect id <;> exact congrArg (·.frame.size) (v.base_withBase _)
  · exact absurd rfl hother

/-! ## A pass -/

namespace Scene

variable {s : Scene} {w w' : World}

/-- From one world to the other the sizes under all names change as links say, and the names whose
    sizes are taken over stand for views. -/
def Copied (s : Scene) (links : List (String × String)) (w w' : World) : Prop :=
  s.sizeOf w' = s.copySizes links (s.sizeOf w) ∧ ∀ l ∈ links, (s.bound? l.2).isSome = true

theorem copied_refl (s : Scene) (w : World) : s.Copied [] w w := ⟨rfl, List.forall_mem_nil _⟩

theorem Copied.trans {a b : List (String × String)} {w₁ : World} (h : s.Copied a w w₁)
    (k : s.Copied b w₁ w') : s.Copied (a ++ b) w w' := by
  refine ⟨?_, fun l hl => ?_⟩
  · rw [k.1, h.1, copySizes_append]
  · rcases List.mem_append.mp hl with hl | hl
    · exact h.2 l hl
    · exact k.2 l hl

/-- A change of one view, under all of its names. -/
theorem sizeOf_set {id : ViewId} {v v' : View} (hv : w.store.get? id = some v)
    (hstore : w'.store = w.store.set id v') (name : String) :
    s.sizeOf w' name =
      if s.bound? name = some id then some v'.base.frame.size else s.sizeOf w name := by
  rw [sizeOf, sizeOf, hstore]
  cases hname : s.bound? name with
  | none => rw [if_neg (by rintro ⟨⟩)]; rfl
  | some other =>
    by_cases hother : other = id
    · rw [hother, if_pos rfl, Option.bind_some, ViewStore.get?_set_self hv]
      rfl
    · rw [if_neg fun h => hother (Option.some.inj h), Option.bind_some, Option.bind_some,
        ViewStore.get?_set_of_ne _ v' hother]

/-- One property that is handed over with a look around. -/
theorem copied_applyKey (hstock : s.definition.catalogue = .stock) (hs : s.Grounded w)
    {d : Declaration} (hd : s.definition.document.get? d.name = some d) {id : ViewId}
    (hid : s.bound? d.name = some id) (key : String)
    (hok : (s.applyKey .attached d id key w).1 = .ok ()) :
    s.Copied (if key = "matchSize" then (s.link d.name).toList else []) w
      (s.applyKey .attached d id key w).2 := by
  have hlink : s.link d.name = (d.sizeSource? s.data).map fun source => (d.name, source) := by
    rw [link, hid, if_pos (show (some id).isSome = true from rfl), Definition.sizeSource?, hd,
      Option.bind_some]
  obtain ⟨u, hu⟩ := ViewStore.has_iff.mp (hs d.name id hid)
  rcases s.applyKey_cases .attached d id key w with
    ⟨hnone | hnone, h⟩ | ⟨p, v, hp, hv, ⟨hr, h⟩ | ⟨e, -, h⟩⟩
  · -- there is no such property
    have hnolink : (if key = "matchSize" then (s.link d.name).toList else []) = [] := by
      split
      · rename_i hkey
        rw [handing, Option.map_eq_none_iff, hkey] at hnone
        rw [hlink, Declaration.sizeSource?, hnone]
        rfl
      · rfl
    rw [h, hnolink]
    exact s.copied_refl w
  · rw [hu] at hnone
    cases hnone
  · rw [h]
    have hsizes := s.sizeOf_set hv (s.store_received .attached d id key p w v)
    rw [receipt, turn, hstock] at hr hsizes
    by_cases hkey : key = "matchSize"
    · subst hkey
      rw [if_pos rfl]
      obtain ⟨name, other, hname, hother, hsize⟩ := Catalogue.size_receive_matchSize hr
      rw [hlink, Declaration.sizeSource?, hp, Option.bind_some, hname]
      have hbound : s.bound? name = some other := by
        have hlookup : s.bindings.lookup name = .ok other := hother
        rw [ViewBindings.lookup, ← bound?] at hlookup
        cases hname : s.bound? name with
        | none =>
          rw [hname] at hlookup
          cases hlookup
        | some found =>
          rw [hname] at hlookup
          exact congrArg some (Except.ok.inj hlookup)
      refine ⟨funext fun n => ?_, fun l hl => ?_⟩
      · rw [hsizes, Option.map_some, Option.toList_some, hsize]
        show _ = if s.bound? n = s.bound? d.name then s.sizeOf w name else s.sizeOf w n
        rw [hid]
        congr 1
        rw [sizeOf, hbound, Option.bind_some, Surroundings.inspect]
        by_cases hself : other = id
        · rw [if_pos hself, hself, hv]
          rfl
        · rw [if_neg hself]
          obtain ⟨u, hu⟩ := ViewStore.has_iff.mp (hs name other hbound)
          rw [hu]
          rfl
      · rw [Option.map_some, Option.toList_some, List.mem_singleton] at hl
        rw [hl, hbound]
        rfl
    · rw [if_neg hkey]
      refine ⟨funext fun n => ?_, List.forall_mem_nil _⟩
      rw [hsizes, Catalogue.size_receive hkey]
      show _ = s.sizeOf w n
      split
      · rename_i hn
        rw [sizeOf, hn, Option.bind_some, hv]
        rfl
      · rfl
  · rw [h] at hok
    cases hok

theorem copied_applyKeys (hstock : s.definition.catalogue = .stock) (hs : s.Grounded w)
    {d : Declaration} (hd : s.definition.document.get? d.name = some d) {id : ViewId}
    (hid : s.bound? d.name = some id) (keys : List String)
    (hok : (s.applyKeys .attached d id keys w).1 = .ok ()) :
    s.Copied (keys.flatMap fun key => if key = "matchSize" then (s.link d.name).toList else []) w
      (s.applyKeys .attached d id keys w).2 := by
  induction keys generalizing w with
  | nil => exact s.copied_refl w
  | cons key rest ih =>
    have hfirst := copied_applyKey hstock hs hd hid key
    have hsize := s.size_applyKey .attached d id key w
    rw [applyKeys] at hok ⊢
    rcases happly : s.applyKey .attached d id key w with ⟨e | ⟨⟩, w₁⟩ <;>
      rw [happly] at hok hfirst hsize
    · cases hok
    · exact (hfirst rfl).trans (ih (hs.of_size hsize) hok)

end Scene

/-- Among names without repetition one is met once, if at all. -/
theorem flatMap_ite_eq {α β : Type} [DecidableEq α] {xs : List α} (h : xs.Nodup) (a : α)
    (ys : List β) : (xs.flatMap fun x => if x = a then ys else []) = if a ∈ xs then ys else [] := by
  induction xs with
  | nil => rfl
  | cons x rest ih =>
    rw [List.nodup_cons] at h
    rw [List.flatMap_cons, ih h.2]
    by_cases hx : x = a
    · rw [if_pos hx, if_neg (hx ▸ h.1), if_pos (by simp [hx]), List.append_nil]
    · rw [if_neg hx, List.nil_append]
      simp [Ne.symm hx]

/-- A declaration that takes over a size states the property. -/
theorem Declaration.mem_setterKeys_of_sizeSource? {d : Declaration} {data : DataBindings}
    (h : (d.sizeSource? data).isSome = true) : "matchSize" ∈ d.setterKeys := by
  refine List.mem_filter.mpr ⟨NameMap.mem_keys_iff.mpr ?_, by decide⟩
  unfold sizeSource? filled? property? at h
  cases hp : d.properties.get? "matchSize" with
  | none =>
    rw [hp] at h
    cases h
  | some p => rfl

namespace Scene

variable {s : Scene} {w w' : World}

theorem copied_applyDeclaration (hstock : s.definition.catalogue = .stock) (hs : s.Grounded w)
    (hdoc : s.definition.document.Indexed) {d : Declaration}
    (hd : s.definition.document.get? d.name = some d)
    (hok : (s.applyDeclaration .attached d d.setterKeys w).1 = .ok ()) :
    s.Copied (s.link d.name).toList w (s.applyDeclaration .attached d d.setterKeys w).2 := by
  rw [applyDeclaration] at hok ⊢
  cases hid : s.bound? d.name with
  | none =>
    rw [link, hid, if_neg (by simp)]
    exact s.copied_refl w
  | some id =>
    rw [hid] at hok
    have hkeys := copied_applyKeys hstock hs hd hid d.setterKeys hok
    rw [flatMap_ite_eq (hdoc _ d hd).nodup_setterKeys] at hkeys
    by_cases hmem : "matchSize" ∈ d.setterKeys
    · rwa [if_pos hmem] at hkeys
    · rw [if_neg hmem] at hkeys
      have hnone : d.sizeSource? s.data = none := by
        by_contra hsome
        exact hmem (Declaration.mem_setterKeys_of_sizeSource? (Option.isSome_iff_ne_none.mpr hsome))
      rwa [link, hid, if_pos (show (some id).isSome = true from rfl), Definition.sizeSource?, hd,
        Option.bind_some, hnone]

theorem copied_applyEach (hstock : s.definition.catalogue = .stock) (hs : s.Grounded w)
    (hdoc : s.definition.document.Indexed) {ds : List Declaration}
    (hds : ∀ d ∈ ds, s.definition.document.get? d.name = some d)
    (hok : s.applyEach .attached ds w = (.ok (), w')) :
    s.Copied (ds.filterMap fun d => s.link d.name) w w' := by
  induction ds generalizing w with
  | nil =>
    rw [applyEach, Prod.mk.injEq] at hok
    exact hok.2 ▸ s.copied_refl w
  | cons d rest ih =>
    have hfirst := copied_applyDeclaration hstock hs hdoc (hds d List.mem_cons_self)
    have hsize := s.size_applyDeclaration .attached d d.setterKeys w
    rw [applyEach] at hok
    rcases happly : s.applyDeclaration .attached d d.setterKeys w with ⟨e | ⟨⟩, w₁⟩ <;>
      rw [happly] at hok hfirst hsize
    · cases hok
    · have hrest := ih (hs.of_size hsize) (fun e he => hds e (.tail d he)) hok
      have hboth := (hfirst rfl).trans hrest
      rw [List.filterMap_cons]
      cases hlink : s.link d.name with
      | none => rwa [hlink] at hboth
      | some l => rwa [hlink] at hboth

/-- The links of a scene, in the order in which the declarations have their turns. -/
def links (s : Scene) : List (String × String) := s.declaredNames.filterMap s.link

theorem links_eq (hdoc : s.definition.document.Indexed) :
    (s.configured.filterMap fun d => s.link d.name) = s.links := by
  rw [configured, links]
  induction s.declaredNames with
  | nil => rfl
  | cons name rest ih =>
    rw [List.filterMap_cons, List.filterMap_cons]
    cases hd : s.definition.document.get? name with
    | none =>
      have hnone : s.link name = none := by
        rw [link, Definition.sizeSource?, hd]
        exact ite_self none
      rw [hnone]
      exact ih
    | some d =>
      have hname : d.name = name := (hdoc name d hd).named
      dsimp only
      by_cases hempty : d.setterKeys.isEmpty = true
      · -- a declaration without properties takes over no size
        have hnone : s.link name = none := by
          have hsource : d.sizeSource? s.data = none := by
            by_contra hsome
            have hmem :=
              Declaration.mem_setterKeys_of_sizeSource? (Option.isSome_iff_ne_none.mpr hsome)
            rw [List.isEmpty_iff.mp hempty] at hmem
            exact List.not_mem_nil hmem
          rw [link, Definition.sizeSource?, hd, Option.bind_some, hsource]
          exact ite_self none
        rw [List.filter_cons_of_neg (by simp [hempty]), hnone]
        exact ih
      · rw [List.filter_cons_of_pos (by simp [hempty]), List.filterMap_cons, hname, ih]

/-- **A pass with a look around follows the links**, and changes no size otherwise. -/
theorem copied_applyAll (hstock : s.definition.catalogue = .stock) (hs : s.Grounded w)
    (hdoc : s.definition.document.Indexed) (hok : s.applyAll .attached w = (.ok (), w')) :
    s.Copied s.links w w' := by
  rw [← links_eq hdoc]
  exact copied_applyEach hstock hs hdoc (fun d hd => get?_of_mem_configured hdoc hd) hok

end Scene

end ViewSheet
