/-
  Documents: what holds of every declaration, however its document came about.

  1. **Reachable documents**: everything that parsing sources and stating properties or trees can
     make of an empty document, in any order, failing parses included.

  2. **The rule** (`Reachable.each`): what holds of an empty declaration, and is kept by stating a
     property or a well-formed tree, holds of every declaration of a reachable document.

  3. **Use**: the trees that are read from lines hang every node from an earlier one, so every
     hierarchy of a reachable document is well-formed (`Reachable.wellFormed`).
-/
import ViewSheet.Proofs.LevelOrder
import ViewSheet.Proofs.Names
import ViewSheet.Sheet.Block

namespace ViewSheet

open Text

/-! ## Trees that are read -/

namespace Hierarchy

theorem wellFormed_empty : empty.WellFormed := by
  intro i n hn
  cases hn

theorem WellFormed.add {h : Hierarchy} (hwf : h.WellFormed) {parent : Nat}
    (hparent : parent < h.size) (name : String) (indent : Nat) :
    (h.add parent name indent).WellFormed := by
  intro i n hn
  rw [Hierarchy.add, List.getElem?_append] at hn
  split at hn
  · exact hwf i n hn
  · rename_i hlast
    rw [List.getElem?_singleton] at hn
    split at hn
    · rw [Option.some.injEq] at hn
      rw [← hn]
      show parent ≤ i
      rw [size] at hparent
      omega
    · cases hn

end Hierarchy

namespace Growth

/-- A tree while it is read: well-formed, and the nodes that are open are there. -/
structure Sound (g : Growth) : Prop where
  wellFormed : g.hierarchy.WellFormed
  opened : ∀ p ∈ g.openNodes, p.2 < g.hierarchy.size

theorem sound_start : start.Sound := by
  refine ⟨Hierarchy.wellFormed_empty, ?_⟩
  intro p hp
  cases hp

theorem Sound.place {g : Growth} (h : g.Sound) (name : String) (indent : Nat) :
    (g.place name indent).Sound := by
  have hsub : ∀ p ∈ g.openNodes.dropWhile fun opened => indent ≤ opened.1,
      p.2 < g.hierarchy.size := fun p hp => h.opened p ((List.dropWhile_sublist _).subset hp)
  have hsize : ∀ parent, (g.hierarchy.add parent name indent).size = g.hierarchy.size + 1 := by
    intro parent
    simp [Hierarchy.add, Hierarchy.size]
  unfold Growth.place
  constructor
  · refine h.wellFormed.add ?_ name indent
    split
    · exact Nat.succ_pos _
    · rename_i p rest heq
      exact hsub (_, p) (by rw [heq]; exact List.mem_cons_self)
  · intro p hp
    rw [hsize]
    rcases List.mem_cons.mp hp with rfl | hp
    · exact Nat.lt_succ_self _
    · exact Nat.lt_succ_of_lt (hsub p hp)

theorem Sound.readAll {g : Growth} (h : g.Sound) (lines : List Line) {tree : Hierarchy}
    (hread : (g.readAll lines).2 = .ok tree) : tree.WellFormed := by
  induction lines generalizing g with
  | nil =>
    rw [Growth.readAll, Except.ok.injEq] at hread
    exact hread ▸ h.wellFormed
  | cons l rest ih =>
    rw [Growth.readAll] at hread
    dsimp only at hread
    split at hread
    · exact ih h hread
    · split at hread
      · cases hread
      · exact ih (h.place _ _) hread

end Growth

theorem Body.wellFormed_of_read {lines : List Line} {tree : Hierarchy}
    (h : (Body.read lines).2 = .ok (.hierarchy tree)) : tree.WellFormed := by
  -- the first line decides what the block is read as
  have hshape : (Body.read lines).2 = (Assignment.readAll none lines).map .setters ∨
      (Body.read lines).2 = (Growth.start.readAll lines).2.map .hierarchy := by
    cases lines with
    | nil => exact Or.inr rfl
    | cons first rest =>
      rw [Body.read]
      dsimp only
      split
      · exact Or.inl rfl
      · exact Or.inr rfl
  rcases hshape with hsetters | htree
  · -- assignments are no tree
    rw [hsetters] at h
    cases hread : Assignment.readAll none lines with
    | error e =>
      rw [hread] at h
      cases h
    | ok assignments =>
      rw [hread] at h
      cases h
  · rw [htree] at h
    cases hread : (Growth.start.readAll lines).2 with
    | error e =>
      rw [hread] at h
      cases h
    | ok read =>
      rw [hread, Except.map, Except.ok.injEq, Body.hierarchy.injEq] at h
      exact h ▸ Growth.sound_start.readAll lines hread

/-! ## What stating keeps -/

/-- What holds of an empty declaration under a name, and is kept by whatever can be stated. -/
structure Declaration.Stable (P : String → Declaration → Prop) : Prop where
  empty : ∀ name, P name (.empty name)
  setProperty : ∀ name d key value line, P name d → P name (d.setProperty key value line).2
  setHierarchy : ∀ name d tree, tree.WellFormed → P name d → P name (d.setHierarchy tree).2

section
variable {P : String → Declaration → Prop} (hP : Declaration.Stable P)
include hP

theorem Assignment.stable_applyAll {name : String} (assignments : List Assignment)
    {d : Declaration} (h : P name d) : P name (applyAll d assignments).2 := by
  induction assignments generalizing d with
  | nil => exact h
  | cons a rest ih =>
    exact ih (hP.setProperty name d a.key (String.ofList (trim a.value)) a.line h)

theorem Body.stable_apply {name : String} {d : Declaration} (h : P name d) {body : Body}
    (hbody : ∀ tree, body = .hierarchy tree → tree.WellFormed) : P name (body.apply d).2 := by
  cases body with
  | setters assignments => exact Assignment.stable_applyAll hP assignments h
  | hierarchy tree => exact hP.setHierarchy name d tree (hbody tree rfl) h

end

namespace Document

/-- Something holds of every declaration and the name it is found under. -/
def Each (P : String → Declaration → Prop) (doc : Document) : Prop :=
  ∀ name d, doc.get? name = some d → P name d

section
variable {P : String → Declaration → Prop} (hP : Declaration.Stable P) {doc doc' : Document}

theorem each_empty (P : String → Declaration → Prop) (identifier : String) :
    (empty identifier).Each P := by
  intro name d hd
  simp [get?, empty] at hd

include hP

theorem Each.getD (h : doc.Each P) (name : String) : P name (doc.getD name) := by
  unfold Document.getD
  cases hd : doc.get? name with
  | none => exact hP.empty name
  | some d => exact h name d hd

/-- What keeps one declaration as it should be keeps them all so. -/
theorem Each.amend (h : doc.Each P) {name : String}
    {change : Declaration → List Event × Declaration}
    (hchange : ∀ d, P name d → P name (change d).2) : (doc.amend name change).2.Each P := by
  intro other d hd
  by_cases ho : other = name
  · subst ho
    rw [get?_amend_self, Option.some.injEq] at hd
    exact hd ▸ hchange _ (h.getD hP other)
  · rw [get?_amend_of_ne doc change ho] at hd
    exact h other d hd

theorem Each.stateAll (h : doc.Each P) (reading : List Event) {body : Body}
    (hbody : ∀ tree, body = .hierarchy tree → tree.WellFormed) (names : List String) :
    (Block.stateAll reading body doc names).2.Each P := by
  induction names generalizing doc with
  | nil => exact h
  | cons name rest ih => exact ih (h.amend hP fun _ hd => Body.stable_apply hP hd hbody)

theorem Each.apply (h : doc.Each P) {b : Block} {events : List Event}
    (hb : b.apply doc = (events, .ok doc')) : doc'.Each P := by
  unfold Block.apply at hb
  split at hb
  · simp at hb
  · split at hb
    · simp only [Prod.mk.injEq, Except.ok.injEq] at hb
      exact hb.2 ▸ h
    · split at hb
      · simp at hb
      · rename_i hread
        simp only [Prod.mk.injEq, Except.ok.injEq] at hb
        refine hb.2 ▸ h.stateAll hP _ (fun tree htree => ?_) _
        exact Body.wellFormed_of_read (by rw [hread, htree])

theorem Each.applyBlocks (h : doc.Each P) (blocks : List Block) :
    (applyBlocks doc blocks).document.Each P := by
  induction blocks generalizing doc with
  | nil => exact h
  | cons b rest ih =>
    rw [ViewSheet.applyBlocks]
    split
    · exact h
    · rename_i hb
      exact ih (h.apply hP hb)

theorem Each.parseInto (h : doc.Each P) (source : String) :
    (parseInto doc source).document.Each P := by
  unfold ViewSheet.parseInto
  dsimp only
  split
  · exact h
  · exact h.applyBlocks hP _

end

/-! ## Reachable documents -/

/-- The documents that sources and hosts can make. -/
inductive Reachable : Document → Prop where
  | empty (identifier : String) : Reachable (.empty identifier)
  | parse {doc : Document} (h : Reachable doc) (source : String) :
      Reachable (parseInto doc source).document
  | touch {doc : Document} (h : Reachable doc) (name : String) : Reachable (doc.touch name)
  | setProperty {doc : Document} (h : Reachable doc) (name key value : String) (line : Nat) :
      Reachable (doc.amend name (·.setProperty key value line)).2
  | setHierarchy {doc : Document} (h : Reachable doc) (name : String) {tree : Hierarchy}
      (htree : tree.WellFormed) : Reachable (doc.amend name (·.setHierarchy tree)).2

/-- **What stating keeps holds of every declaration of a reachable document.** -/
theorem Reachable.each {P : String → Declaration → Prop} (hP : Declaration.Stable P)
    {doc : Document} (h : Reachable doc) : doc.Each P := by
  induction h with
  | empty identifier => exact each_empty P identifier
  | parse _ source ih => exact ih.parseInto hP source
  | touch _ name ih => exact ih.amend hP fun _ hd => hd
  | setProperty _ name key value line ih =>
    exact ih.amend hP fun d hd => hP.setProperty name d key value line hd
  | setHierarchy _ name htree ih =>
    exact ih.amend hP fun d hd => hP.setHierarchy name d _ htree hd

theorem stable_wellFormed : Declaration.Stable fun _ d =>
    ∀ tree, d.hierarchy = some tree → tree.WellFormed where
  empty := fun _ tree htree => by cases htree
  setProperty := fun _ _ _ _ _ h => h
  setHierarchy := fun _ _ tree htree _ other hother => by
    rw [Declaration.setHierarchy, Option.some.injEq] at hother
    exact hother ▸ htree

/-- **The trees of a reachable document are well-formed.** -/
theorem Reachable.wellFormed {doc : Document} (h : Reachable doc) {name : String} {tree : Hierarchy}
    (htree : (doc.get? name).bind (·.hierarchy) = some tree) : tree.WellFormed := by
  obtain ⟨d, hd, howned⟩ := Option.bind_eq_some_iff.mp htree
  exact h.each stable_wellFormed name d hd tree howned

end Document

end ViewSheet
