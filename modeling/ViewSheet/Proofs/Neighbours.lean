/-
  Neighbours: scenes that share nothing do not get into each other's way.

  1. **Specification**: of what a host does, some is left out: all calls on other scenes than one
     (`Deed.spares`).  The host that does the rest is set beside the host that does it all.

  2. **Setting up** (`Host.Apart`): scenes that were loaded without initial views stand for views of
     their own, with nothing attached.

  3. **The crux**: the two hosts keep in step (`InStep`).  They have the one scene in common, and
     their worlds mirror each other on its views and containers.  What is done with the scene gives
     the same in both worlds.  What is done with another scene happens in one of them only, and does
     not touch these views.

  4. **Result** (`undisturbed`).
-/
import ViewSheet.Proofs.Hosting
import ViewSheet.Proofs.Locality

namespace ViewSheet

/-! ## One scene's share -/

/-- What a call on a scene gives, if there is such a scene. -/
def Host.outcome (h : Host) (i : Nat) (c : Call) : Option (Except Error Unit) :=
  (h.scenes[i]?).map fun s => (c.run ⟨s, h.world⟩).1

namespace Deed

/-- The deed is a call on the scene. -/
def calls (i : Nat) : Deed → Bool
  | attach j _ => j = i
  | update j _ => j = i
  | _ => false

/-- The deed is no call on another scene. -/
def spares (i : Nat) : Deed → Bool
  | attach j _ => j = i
  | update j _ => j = i
  | _ => true

/-- What a call on a scene gives. -/
def outcome : Deed → Host → Option (Except Error Unit)
  | attach i container, h => h.outcome i (.attach container)
  | update i change, h => h.outcome i (.update change)
  | _, _ => none

/-- The deed makes a view with nothing attached, or loads a hierarchy with views and properties of
    the stock classes and without initial views. -/
def SetsUp (deed : Deed) : Prop :=
  (∃ v, deed = .create v ∧ v.subviews = []) ∨
    ∃ d root data, deed = .load d root data [] ∧ d.catalogue = .stock

/-- The deed makes a view with nothing attached, or is a call on a scene. -/
def GoesOn (deed : Deed) : Prop :=
  (∃ v, deed = .create v ∧ v.subviews = []) ∨ (∃ i container, deed = .attach i container) ∨
    ∃ i change, deed = .update i change

end Deed

/-- What came of the calls on a scene, one after the other. -/
def outcomesOf (i : Nat) (past : List Entry) : List (Option (Except Error Unit)) :=
  (past.filter fun e => e.deed.calls i).map fun e => e.deed.outcome e.before

theorem Deed.calls_of_not_spares {i : Nat} {deed : Deed} (h : deed.spares i = false) :
    deed.calls i = false := by
  cases deed with
  | attach j container => exact h
  | update j change => exact h
  | create v => rfl
  | edit id v => rfl
  | load d root data views => rfl

theorem outcomesOf_play_cons (i : Nat) (deed : Deed) (rest : List Deed) (h : Host) :
    outcomesOf i (Deed.play (deed :: rest) h).1 =
      (if deed.calls i then [deed.outcome h] else []) ++
        outcomesOf i (Deed.play rest (deed.run h)).1 := by
  show outcomesOf i (⟨h, deed⟩ :: (Deed.play rest (deed.run h)).1) = _
  rw [outcomesOf, List.filter_cons]
  split
  · rfl
  · rfl

/-! ## Setting up -/

/-- The scenes stand for views of their own, which were not there before some moment.  Nothing is
    attached to views that were not there. -/
structure Host.Apart (w₀ : World) (h : Host) : Prop where
  grown : w₀.store.size ≤ h.world.store.size
  bare : ∀ id, ¬ w₀.store.Has id → h.world.store.subviews id = []
  own : ∀ s ∈ h.scenes, ∀ name id, s.bound? name = some id →
    ¬ w₀.store.Has id ∧ h.world.store.Has id
  apart : ∀ (i j : Nat) (s t : Scene), h.scenes[i]? = some s → h.scenes[j]? = some t →
    ∀ a b id, s.bound? a = some id → t.bound? b = some id → i = j
  stock : ∀ s ∈ h.scenes, s.definition.catalogue = .stock

namespace Host.Apart

variable {w₀ : World} {h : Host}

theorem start (w₀ : World) : Host.Apart w₀ ⟨[], w₀⟩ where
  grown := Nat.le_refl _
  bare := fun _ hid =>
    List.eq_nil_iff_forall_not_mem.mpr fun _ hbears => hid (ViewStore.Bears.has hbears)
  own := List.forall_mem_nil _
  apart := fun i j s t hs => by cases hs
  stock := List.forall_mem_nil _

/-- The world grows while the scenes stay. -/
theorem grow (hh : h.Apart w₀) {w : World} (hgrown : Grown h.world w) :
    Host.Apart w₀ ⟨h.scenes, w⟩ where
  grown := Nat.le_trans hh.grown hgrown.size
  bare := fun id hid => (hgrown.subviews id).trans (hh.bare id hid)
  own := fun s hs name id hid =>
    (hh.own s hs name id hid).imp_right hgrown.has
  apart := hh.apart
  stock := hh.stock

/-- A scene is added that stands for new views. -/
theorem add (hh : h.Apart w₀) {w : World} (hgrown : Grown h.world w) {t : Scene}
    (hnew : ∀ name id, t.bound? name = some id → ¬ h.world.store.Has id ∧ w.store.Has id)
    (hstock : t.definition.catalogue = .stock) : Host.Apart w₀ ⟨h.scenes ++ [t], w⟩ := by
  have hafter := hh.grow hgrown
  have hcases : ∀ (i : Nat) (s : Scene), (h.scenes ++ [t])[i]? = some s →
      h.scenes[i]? = some s ∨ (i = h.scenes.length ∧ s = t) := by
    intro i s hs
    rw [List.getElem?_append] at hs
    split at hs
    · exact Or.inl hs
    · rename_i hlast
      rw [List.getElem?_singleton] at hs
      split at hs
      · rw [Option.some.injEq] at hs
        exact Or.inr ⟨by omega, hs.symm⟩
      · cases hs
  have hold : ∀ (i : Nat) (s : Scene), h.scenes[i]? = some s → ∀ a b id,
      s.bound? a = some id → t.bound? b ≠ some id :=
    fun i s hs a b id ha hb =>
      (hnew b id hb).1 (hh.own s (List.mem_of_getElem? hs) a id ha).2
  refine ⟨hafter.grown, hafter.bare, fun s hs name id hid => ?_, ?_, fun s hs => ?_⟩
  · rcases List.mem_append.mp hs with hs | hs
    · exact hafter.own s hs name id hid
    · obtain rfl := List.mem_singleton.mp hs
      obtain ⟨hnot, hthere⟩ := hnew name id hid
      exact ⟨fun hearly => hnot (hearly.mono hh.grown), hthere⟩
  · intro i j s u hs hu a b id ha hb
    rcases hcases i s hs with hearly | ⟨hi, rfl⟩ <;>
      rcases hcases j u hu with hearlyToo | ⟨hj, rfl⟩
    · exact hh.apart i j s u hearly hearlyToo a b id ha hb
    · exact absurd hb (hold i s hearly a b id ha)
    · exact absurd ha (hold j u hearlyToo b a id hb)
    · exact hi.trans hj.symm
  · rcases List.mem_append.mp hs with hs | hs
    · exact hh.stock s hs
    · obtain rfl := List.mem_singleton.mp hs
      exact hstock

theorem load (hh : h.Apart w₀) {d : Definition} (hstock : d.catalogue = .stock) (root : String)
    (data : DataBindings) : ((Deed.load d root data []).run h).Apart w₀ := by
  have hgrown : Grown h.world (Scene.load d root data [] h.world).2 :=
    Scene.grown_load (hstock ▸ Catalogue.makesBare_stock) (hstock ▸ Catalogue.keepsSubviews_stock)
      root data (List.forall_mem_nil _)
  rcases hload : Scene.load d root data [] h.world with ⟨e | t, w⟩
  · rw [hload] at hgrown
    rw [Deed.run_load_error hload]
    exact hh.grow hgrown
  · rw [hload] at hgrown
    rw [Deed.run_load_ok hload]
    obtain ⟨hierarchy, w₁, -, hbuilds, -⟩ :=
      Scene.exists_builds_of_load (List.forall_mem_nil _) hload
    have hloaded := Scene.loaded_of_load (List.forall_mem_nil _) hload
    exact hh.add hgrown
      (fun name id hid => ⟨(hbuilds.made_of_bare hid).2.2.1, hloaded.grounded name id hid⟩)
      (hloaded.definition ▸ hstock)

end Host.Apart

/-- **Scenes that are loaded without initial views are apart.** -/
theorem History.apart {w₀ : World} {past : List Entry} {h : Host}
    (hpast : History ⟨[], w₀⟩ past h) (hsetup : ∀ e ∈ past, e.deed.SetsUp) : h.Apart w₀ := by
  induction hpast with
  | start => exact .start w₀
  | deed hearlier deed allowed ih =>
    have hh := ih fun e he => hsetup e (List.mem_append_left _ he)
    have hdeed := hsetup _ (List.mem_append_right _ List.mem_cons_self)
    rcases hdeed with ⟨v, rfl, hv⟩ | ⟨d, root, data, rfl, hstock⟩
    · exact hh.grow (grown_addView hv _)
    · exact hh.load hstock root data

/-! ## One call -/

namespace Call

variable {R : ViewId → Prop} {s : Scene} {c : Call}

/-- **A call gives the same in worlds that mirror each other.** -/
theorem mirrored_run (hs : s.Within R) (hstock : s.definition.catalogue = .stock)
    (hcreate : ∀ v, c = .create v → v.subviews = [])
    (hattach : ∀ container, c = .attach container → R container) {a b : World}
    (h : Mirrored R a b) : (c.run ⟨s, b⟩).1 = (c.run ⟨s, a⟩).1 ∧
      (c.run ⟨s, b⟩).2.scene = (c.run ⟨s, a⟩).2.scene ∧
      Mirrored R (c.run ⟨s, a⟩).2.world (c.run ⟨s, b⟩).2.world := by
  have hdiscreet := hstock ▸ Catalogue.discreet_stock
  have hkeeps := hstock ▸ Catalogue.keepsSubviews_stock
  cases c with
  | create v => exact ⟨rfl, rfl, h.addView (hcreate v rfl)⟩
  | attach container =>
    exact Scene.mirrored_attach hs hdiscreet hkeeps (hattach container rfl) h
  | update change =>
    obtain ⟨hresult, hafter⟩ := Scene.mirrored_update hs hdiscreet hkeeps change h
    refine ⟨hresult, ?_, hafter⟩
    rw [scene_run_update, scene_run_update]

/-- A call on a scene that stands for none of some views changes none of them. -/
theorem agreeOn_run (hs : s.Outside R) (hcreate : ∀ v, c ≠ .create v)
    (hattach : ∀ container, c = .attach container → ¬ R container) (w : World) :
    AgreeOn R w (c.run ⟨s, w⟩).2.world := by
  cases c with
  | create v => exact absurd rfl (hcreate v)
  | attach container => exact hs.agreeOn_attach (hattach container rfl) w
  | update change => exact hs.agreeOn_update change w

end Call

/-! ## In step -/

/-- Two hosts that have a scene in common.  Their worlds mirror each other on some views, which are
    all that this scene stands for, and nothing that another scene of the one host stands for. -/
structure InStep (i : Nat) (R : ViewId → Prop) (h g : Host) : Prop where
  same : g.scenes[i]? = h.scenes[i]?
  within : ∀ s, h.scenes[i]? = some s → s.Within R
  stock : ∀ s, h.scenes[i]? = some s → s.definition.catalogue = .stock
  outside : ∀ j s, j ≠ i → h.scenes[j]? = some s → s.Outside R
  worlds : Mirrored R h.world g.world

namespace InStep

variable {i : Nat} {R : ViewId → Prop} {h g : Host}

theorem create (hin : InStep i R h g) {v : View} (hv : v.subviews = []) :
    InStep i R ((Deed.create v).run h) ((Deed.create v).run g) :=
  ⟨hin.same, hin.within, hin.stock, hin.outside, hin.worlds.addView hv⟩

/-- A call on the scene gives the same in both hosts, and they keep in step. -/
theorem ownCall (hin : InStep i R h g) {c : Call} (hcreate : ∀ v, c ≠ .create v)
    (hattach : ∀ container, c = .attach container → R container) :
    g.outcome i c = h.outcome i c ∧ InStep i R (h.call i c) (g.call i c) := by
  unfold Host.outcome
  rcases h.call_cases i c with ⟨hnone, hcall⟩ | ⟨s, hs, hcall⟩
  · have hnoneToo := hin.same.trans hnone
    rcases g.call_cases i c with ⟨-, hcallToo⟩ | ⟨t, ht, -⟩
    · rw [hcall, hcallToo, hnone, hnoneToo]
      exact ⟨rfl, hin⟩
    · rw [hnoneToo] at ht
      cases ht
  · have hsToo := hin.same.trans hs
    rcases g.call_cases i c with ⟨hnone, -⟩ | ⟨t, ht, hcallToo⟩
    · rw [hnone] at hsToo
      cases hsToo
    · obtain rfl : t = s := Option.some.inj (ht.symm.trans hsToo)
      obtain ⟨hresult, hscene, hworlds⟩ := Call.mirrored_run (hin.within t hs) (hin.stock t hs)
        (fun v hv => absurd hv (hcreate v)) hattach hin.worlds
      obtain ⟨hlt, -⟩ := List.getElem?_eq_some_iff.mp hs
      obtain ⟨hltToo, -⟩ := List.getElem?_eq_some_iff.mp ht
      rw [hs, ht, hcall, hcallToo]
      refine ⟨congrArg some hresult, ?_, fun s' hs' => ?_, fun s' hs' => ?_,
        fun j s' hne hs' => ?_, hworlds⟩
      · rw [List.getElem?_set_self hlt, List.getElem?_set_self hltToo, hscene]
      · rw [List.getElem?_set_self hlt, Option.some.injEq] at hs'
        subst hs'
        intro name id hid
        rcases Call.bound?_run hid with hold | ⟨hnew, -⟩
        · exact hin.within t hs name id hold
        · exact hattach id hnew
      · rw [List.getElem?_set_self hlt, Option.some.injEq] at hs'
        rw [← hs', (c.steady_run ⟨t, h.world⟩).definition]
        exact hin.stock t hs
      · rw [List.getElem?_set_ne hne.symm] at hs'
        exact hin.outside j s' hne hs'

/-- A call on another scene of the one host leaves both in step. -/
theorem otherCall (hin : InStep i R h g) {j : Nat} (hne : j ≠ i) {c : Call}
    (hcreate : ∀ v, c ≠ .create v)
    (hattach : ∀ container, c = .attach container → ¬ R container) :
    InStep i R (h.call j c) g := by
  rcases h.call_cases j c with ⟨-, hcall⟩ | ⟨s, hs, hcall⟩
  · rw [hcall]
    exact hin
  · have houtside := hin.outside j s hne hs
    have hkept : (h.scenes.set j (c.run ⟨s, h.world⟩).2.scene)[i]? = h.scenes[i]? :=
      List.getElem?_set_ne hne
    rw [hcall]
    refine ⟨hin.same.trans hkept.symm, fun s' hs' => hin.within s' (hkept ▸ hs'),
      fun s' hs' => hin.stock s' (hkept ▸ hs'), fun k s' hk hs' => ?_,
      hin.worlds.of_agreeOn (Call.agreeOn_run houtside hcreate hattach h.world)⟩
    rw [List.getElem?_set] at hs'
    split at hs'
    · split at hs'
      · rw [Option.some.injEq] at hs'
        subst hs'
        intro name id hid
        rcases Call.bound?_run hid with hold | ⟨hnew, -⟩
        · exact houtside name id hold
        · exact hattach id hnew
      · cases hs'
    · exact hin.outside k s' hk hs'

/-- **One deed**: both hosts do it, and the same comes of it, or it is a call on another scene that
    one of them leaves out. -/
theorem step (hin : InStep i R h g) {deed : Deed} (hdeed : deed.GoesOn)
    (hown : ∀ c, deed = .attach i c → R c)
    (hother : ∀ j c, j ≠ i → deed = .attach j c → ¬ R c) :
    (deed.spares i = true ∧ deed.outcome g = deed.outcome h ∧
      InStep i R (deed.run h) (deed.run g)) ∨
    (deed.spares i = false ∧ InStep i R (deed.run h) g) := by
  rcases hdeed with ⟨v, rfl, hv⟩ | ⟨j, container, rfl⟩ | ⟨j, change, rfl⟩
  · exact Or.inl ⟨rfl, rfl, hin.create hv⟩
  · by_cases hij : j = i
    · subst hij
      refine Or.inl ⟨decide_eq_true rfl, hin.ownCall (fun v => Call.noConfusion) fun c hc => ?_⟩
      rw [Call.attach.injEq] at hc
      exact hown c (hc ▸ rfl)
    · refine Or.inr ⟨decide_eq_false hij,
        hin.otherCall hij (fun v => Call.noConfusion) fun c hc => ?_⟩
      rw [Call.attach.injEq] at hc
      exact hother j c hij (hc ▸ rfl)
  · by_cases hij : j = i
    · subst hij
      exact Or.inl ⟨decide_eq_true rfl, hin.ownCall (fun v => Call.noConfusion)
        fun c => Call.noConfusion⟩
    · exact Or.inr ⟨decide_eq_false hij, hin.otherCall hij (fun v => Call.noConfusion)
        fun c => Call.noConfusion⟩

/-- **A host that leaves out calls on other scenes keeps in step with one that makes them.** -/
theorem play (hin : InStep i R h g) {deeds : List Deed} (hdeeds : ∀ deed ∈ deeds, deed.GoesOn)
    (hown : ∀ c, Deed.attach i c ∈ deeds → R c)
    (hother : ∀ j c, j ≠ i → Deed.attach j c ∈ deeds → ¬ R c) :
    outcomesOf i (Deed.play (deeds.filter fun deed => deed.spares i) g).1 =
        outcomesOf i (Deed.play deeds h).1 ∧
      InStep i R (Deed.play deeds h).2
        (Deed.play (deeds.filter fun deed => deed.spares i) g).2 := by
  induction deeds generalizing h g with
  | nil => exact ⟨rfl, hin⟩
  | cons deed rest ih =>
    have hrest : ∀ {h g : Host}, InStep i R h g → _ := fun hin => ih hin
      (fun d hd => hdeeds d (List.mem_cons_of_mem deed hd))
      (fun c hc => hown c (List.mem_cons_of_mem deed hc))
      (fun j c hne hc => hother j c hne (List.mem_cons_of_mem deed hc))
    rcases hin.step (hdeeds deed List.mem_cons_self)
      (fun c hc => hown c (hc ▸ List.mem_cons_self))
      (fun j c hne hc => hother j c hne (hc ▸ List.mem_cons_self)) with
      ⟨hspares, houtcome, hafter⟩ | ⟨hleft, hafter⟩
    · obtain ⟨houtcomes, hlast⟩ := hrest hafter
      rw [List.filter_cons_of_pos hspares]
      refine ⟨?_, hlast⟩
      rw [outcomesOf_play_cons, outcomesOf_play_cons, houtcome, houtcomes]
    · obtain ⟨houtcomes, hlast⟩ := hrest hafter
      rw [List.filter_cons_of_neg (Bool.eq_false_iff.mp hleft)]
      refine ⟨?_, hlast⟩
      rw [outcomesOf_play_cons, Deed.calls_of_not_spares hleft, houtcomes]
      rfl

/-- A host with scenes that are apart is in step with itself.  What the scene stands for or is
    attached to must not be what another scene is attached to. -/
theorem start {w₀ : World} (hh : h.Apart w₀) {contains : ViewId → Prop}
    (hfresh : ∀ c, contains c → ¬ w₀.store.Has c ∧ ∀ s ∈ h.scenes, ∀ name, s.bound? name ≠ some c) :
    InStep i (fun id => (∃ s name, h.scenes[i]? = some s ∧ s.bound? name = some id) ∨ contains id)
      h h where
  same := rfl
  within := fun s hs name id hid => Or.inl ⟨s, name, hs, hid⟩
  stock := fun s hs => hh.stock s (List.mem_of_getElem? hs)
  outside := by
    rintro j s hne hs name id hid (⟨t, other, ht, hother⟩ | hcontains)
    · exact hne (hh.apart j i s t hs ht name other id hid hother)
    · exact (hfresh id hcontains).2 s (List.mem_of_getElem? hs) name hid
  worlds := by
    refine ⟨.refl _, fun id hid child hchild => ?_⟩
    have hnew : ¬ w₀.store.Has id := by
      rcases hid with ⟨s, name, hs, hbound⟩ | hcontains
      · exact (hh.own s (List.mem_of_getElem? hs) name id hbound).1
      · exact (hfresh id hcontains).1
    rw [hh.bare id hnew] at hchild
    cases hchild

end InStep

/-! ## The result -/

/-- **Scenes that were loaded without initial views and are attached to different new containers do
    not interfere.**  For each of them, the calls on all others may be left out: its own calls give
    the same, and it ends up the same, with the same views. -/
theorem undisturbed {w₀ : World} {past : List Entry} {h : Host}
    (hpast : History ⟨[], w₀⟩ past h) (hsetup : ∀ e ∈ past, e.deed.SetsUp) {deeds : List Deed}
    (hdeeds : ∀ deed ∈ deeds, deed.GoesOn)
    (hfresh : ∀ i c, Deed.attach i c ∈ deeds →
      ¬ w₀.store.Has c ∧ ∀ s ∈ h.scenes, ∀ name, s.bound? name ≠ some c)
    (hdiffer : ∀ i j c, Deed.attach i c ∈ deeds → Deed.attach j c ∈ deeds → i = j) (i : Nat)
    {all own : List Entry} {last alone : Host} (hall : Deed.play deeds h = (all, last))
    (hown : Deed.play (deeds.filter fun deed => deed.spares i) h = (own, alone)) :
    outcomesOf i own = outcomesOf i all ∧ alone.scenes[i]? = last.scenes[i]? ∧
      (∀ s, last.scenes[i]? = some s → ∀ name id, s.bound? name = some id →
        alone.world.store.get? id = last.world.store.get? id) ∧
      ∀ c, Deed.attach i c ∈ deeds → alone.world.store.get? c = last.world.store.get? c := by
  have hstart := InStep.start (i := i) (hpast.apart hsetup) (hfresh i)
  have hstill := hstart.play hdeeds (fun c hc => Or.inr hc) (fun j c hne hc => ?_)
  · rw [hall, hown] at hstill
    obtain ⟨houtcomes, hlast⟩ := hstill
    exact ⟨houtcomes, hlast.same, fun s hs name id hid => hlast.worlds.views id
      (hlast.within s hs name id hid), fun c hc => hlast.worlds.views c (Or.inr hc)⟩
  · rintro (⟨s, name, hs, hid⟩ | hmine)
    · exact (hfresh j c hc).2 s (List.mem_of_getElem? hs) name hid
    · exact hne (hdiffer j i c hc hmine)

/-! ## Twins -/

/-- A sheet with a view that takes over the size of another. -/
def twin : Definition where
  document := (parseInto (.empty "sheet")
    "Main:\n  A\n  B\nA:\n  .matchSize = B\nB:\n  .size = \x7b#\x7bx\x7d, 1\x7d\n").document
  catalogue := .stock
  listener := none

/-- A host that loads the sheet twice and makes two containers. -/
def pairing : List Deed :=
  [.load twin "Main" (.ofList [("x", "1")]) [], .load twin "Main" (.ofList [("x", "2")]) [],
    .create (.stock (.container {})), .create (.stock (.container {}))]

/-- The host after that. -/
def twins : Host := (Deed.play pairing ⟨[], .empty⟩).2

/-- Calls on both scenes in turns, some of which fail. -/
def mingled : List Deed :=
  [.attach 0 ⟨4⟩, .update 1 fun _ => .ofList [("x", "wide")], .attach 1 ⟨5⟩,
    .update 0 fun _ => .ofList [("x", "3")], .update 1 fun _ => .ofList [("x", "4")],
    .attach 1 ⟨5⟩]

theorem twins_computed : Deed.allAllowed pairing ⟨[], .empty⟩ = true ∧
    (∀ s ∈ twins.scenes, ∀ p ∈ s.bindings.entries, p.2 ≠ some ⟨4⟩ ∧ p.2 ≠ some ⟨5⟩) ∧
    (outcomesOf 1 (Deed.play mingled twins).1).map (Option.map Except.isOk) =
      [some false, some false, some true, some true] := by
  decide +kernel

/-- The second scene fails twice and then goes on, no matter what happens to the first one. -/
theorem undisturbed_twins :
    let alone := Deed.play (mingled.filter fun deed => deed.spares 1) twins
    let last := (Deed.play mingled twins).2
    (outcomesOf 1 alone.1).map (Option.map Except.isOk) =
      [some false, some false, some true, some true] ∧
    alone.2.scenes[1]? = last.scenes[1]? ∧
    (∀ s, last.scenes[1]? = some s → ∀ name id, s.bound? name = some id →
      alone.2.world.store.get? id = last.world.store.get? id) ∧
    alone.2.world.store.get? ⟨5⟩ = last.world.store.get? ⟨5⟩ := by
  obtain ⟨hallowed, hfree, hresults⟩ := twins_computed
  have hcontainers : ∀ i c, Deed.attach i c ∈ mingled → (i = 0 ∧ c = ⟨4⟩) ∨ (i = 1 ∧ c = ⟨5⟩) := by
    intro i c hmem
    simpa [mingled] using hmem
  have hunbound : ∀ s ∈ twins.scenes, ∀ name, s.bound? name ≠ some ⟨4⟩ ∧
      s.bound? name ≠ some ⟨5⟩ := by
    intro s hs name
    have hentry : ∀ id, s.bound? name = some id → (name, some id) ∈ s.bindings.entries :=
      fun id hid => NameMap.mem_of_get? (Option.join_eq_some_iff.mp hid)
    exact ⟨fun hid => (hfree s hs _ (hentry _ hid)).1 rfl,
      fun hid => (hfree s hs _ (hentry _ hid)).2 rfl⟩
  have hsetup : ∀ e ∈ (Deed.play pairing ⟨[], .empty⟩).1, e.deed.SetsUp := by
    intro e he
    have hdeed := Deed.mem_of_mem_play he
    simp only [pairing, List.mem_cons, List.not_mem_nil, or_false] at hdeed
    rcases hdeed with h | h | h | h
    · exact Or.inr ⟨_, _, _, h, rfl⟩
    · exact Or.inr ⟨_, _, _, h, rfl⟩
    · exact Or.inl ⟨_, h, rfl⟩
    · exact Or.inl ⟨_, h, rfl⟩
  have hgoesOn : ∀ deed ∈ mingled, deed.GoesOn := by
    simp [mingled, Deed.GoesOn]
  have hfresh : ∀ i c, Deed.attach i c ∈ mingled →
      ¬ World.empty.store.Has c ∧ ∀ s ∈ twins.scenes, ∀ name, s.bound? name ≠ some c := by
    intro i c hmem
    refine ⟨Nat.not_lt_zero _, fun s hs name => ?_⟩
    rcases hcontainers i c hmem with ⟨-, rfl⟩ | ⟨-, rfl⟩
    · exact (hunbound s hs name).1
    · exact (hunbound s hs name).2
  have hdiffer : ∀ i j c, Deed.attach i c ∈ mingled → Deed.attach j c ∈ mingled → i = j := by
    intro i j c hi hj
    rcases hcontainers i c hi with ⟨rfl, rfl⟩ | ⟨rfl, rfl⟩ <;>
      rcases hcontainers j _ hj with ⟨rfl, h⟩ | ⟨rfl, h⟩
    · rfl
    · cases h
    · cases h
    · rfl
  obtain ⟨houtcomes, hscene, hviews, hcontainer⟩ := undisturbed (History.play hallowed) hsetup
    hgoesOn hfresh hdiffer 1 (rfl : Deed.play mingled twins = _) rfl
  exact ⟨houtcomes ▸ hresults, hscene, hviews, hcontainer ⟨5⟩ (by simp [mingled])⟩

end ViewSheet
