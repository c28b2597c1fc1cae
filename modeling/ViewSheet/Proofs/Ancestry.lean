/-
  Ancestry: which classes a class descends from.

  1. **Program**: `chain` climbs from superclass to superclass.  It stops at a class without a
     superclass, and where the next class has been passed already.

  2. **Specification**: `Above` is one superclass link, as it is registered; a class descends from
     all that a walk along such links comes to, also where the links go round in a circle.

  3. **The crux** (`climb_ancestors`): `Climb` is the climb as a derivation.  The program reads the
     classes that are left, and the derivation reads all of them.  Both come to the same, since a
     class that has been passed is not asked for its superclass again.

  4. **Result**: the chain of a class lists all that the class descends from (`mem_chain_iff`).
-/
import Mathlib.Logic.Relation
import ViewSheet.Catalogue.Basic

namespace ViewSheet

namespace Catalogue

/-! ## Superclass links -/

/-- The class `next` is registered as the superclass of `name`. -/
def Above (c : Catalogue) (name next : String) : Prop := superclass? c.classes name = some next

/-- Superclass links lead from a class to another, or the two are the same. -/
def Descends (c : Catalogue) : String → String → Prop := Relation.ReflTransGen c.Above

theorem Above.unique {c : Catalogue} {name a b : String} (ha : c.Above name a)
    (hb : c.Above name b) : a = b :=
  Option.some.inj (ha.symm.trans hb)

/-! ## The climb -/

/-- Climbing from `current`, with some classes passed, comes to the classes listed. -/
inductive Climb (c : Catalogue) : List String → String → List String → Prop where
  | top {passed : List String} {current : String} (last : ∀ next, ¬ c.Above current next) :
      Climb c passed current []
  | loop {passed : List String} {current next : String} (link : c.Above current next)
      (known : next ∈ passed) : Climb c passed current []
  | step {passed above : List String} {current next : String} (link : c.Above current next)
      (new : next ∉ passed) (rest : Climb c (passed ++ [next]) next above) :
      Climb c passed current (next :: above)

theorem superclass?_erase_of_ne (classes : NameMap ClassEntry) {name other : String}
    (h : other ≠ name) : superclass? (classes.erase name) other = superclass? classes other := by
  unfold superclass?
  rw [NameMap.get?_erase_of_ne _ h]

/-- The program climbs.  The classes that are left are all, but for those that have been passed on
    the way to `current`. -/
theorem climb_ancestors (c : Catalogue) {left : NameMap ClassEntry} {passed : List String}
    {current : String} (hcurrent : current ∈ passed)
    (hleft : ∀ name, name ∉ passed ∨ name = current →
      superclass? left name = superclass? c.classes name) :
    c.Climb passed current (ancestors left passed current).1 := by
  have hlink := hleft current (Or.inr rfl)
  induction left, passed, current using ancestors.induct with
  | case1 left passed current hnone =>
    rw [ancestors, hnone]
    refine .top fun next hnext => ?_
    rw [Above, ← hlink, hnone] at hnext
    cases hnext
  | case2 left passed current next hnext hknown =>
    rw [ancestors, hnext]
    dsimp only
    rw [if_pos hknown]
    exact .loop (hlink.symm.trans hnext) (List.contains_iff_mem.mp hknown)
  | case3 left passed current next hnext hnew more loop _ ih =>
    have hnot : next ∉ passed := fun hmem => hnew (List.contains_iff_mem.mpr hmem)
    have herased : ∀ name, name ∉ passed ++ [next] ∨ name = next →
        superclass? (left.erase current) name = superclass? c.classes name := by
      intro name hname
      have hout : name ∉ passed := by
        rcases hname with hname | rfl
        · exact fun hmem => hname (List.mem_append_left _ hmem)
        · exact hnot
      have hne : name ≠ current := fun heq => hout (by rw [heq]; exact hcurrent)
      rw [superclass?_erase_of_ne left hne]
      exact hleft name (Or.inl hout)
    have hrest := ih (List.mem_append_right _ (List.mem_singleton_self next)) herased
      (herased next (Or.inr rfl))
    rw [ancestors, hnext]
    dsimp only
    rw [if_neg hnew]
    exact .step (hlink.symm.trans hnext) hnot hrest

namespace Climb

variable {c : Catalogue} {passed above : List String} {current : String}

/-- A climb comes to nothing but what the class descends from. -/
theorem descends (h : c.Climb passed current above) {name : String} (hname : name ∈ above) :
    c.Descends current name := by
  induction h with
  | top => cases hname
  | loop => cases hname
  | step link _ _ ih =>
    rcases List.mem_cons.mp hname with rfl | hlater
    · exact .single link
    · exact .head link (ih hlater)

/-- After a climb no link leads anywhere else. -/
theorem closed (h : c.Climb passed current above)
    (hpassed : ∀ name ∈ passed, name ≠ current → ∀ next, c.Above name next → next ∈ passed) :
    ∀ name ∈ passed ++ above, ∀ next, c.Above name next → next ∈ passed ++ above := by
  induction h with
  | @top passed current last =>
    intro name hname next hnext
    rw [List.append_nil] at hname ⊢
    exact hpassed name hname (fun heq => last next (heq ▸ hnext)) next hnext
  | @loop passed current other link known =>
    intro name hname next hnext
    rw [List.append_nil] at hname ⊢
    by_cases heq : name = current
    · rw [heq] at hnext
      exact hnext.unique link ▸ known
    · exact hpassed name hname heq next hnext
  | @step passed above current other link _ _ ih =>
    have hmore : ∀ name ∈ passed ++ [other], name ≠ other → ∀ next, c.Above name next →
        next ∈ passed ++ [other] := by
      intro name hname hne next hnext
      have hmem : name ∈ passed := by
        rcases List.mem_append.mp hname with hmem | hlast
        · exact hmem
        · exact absurd (List.mem_singleton.mp hlast) hne
      by_cases heq : name = current
      · rw [heq] at hnext
        rw [hnext.unique link]
        exact List.mem_append_right _ (List.mem_singleton_self other)
      · exact List.mem_append_left _ (hpassed name hmem heq next hnext)
    have hclosed := ih hmore
    rw [List.append_assoc, List.singleton_append] at hclosed
    exact hclosed

end Climb

/-! ## Chains -/

theorem climb_chain (c : Catalogue) (name : String) :
    ∃ above, (c.chain name).2 = name :: above ∧ c.Climb [name] name above :=
  ⟨(ancestors c.classes [name] name).1, rfl,
    c.climb_ancestors (List.mem_singleton_self name) fun _ _ => rfl⟩

/-- **The chain of a class lists all that the class descends from.** -/
theorem mem_chain_iff (c : Catalogue) {name ancestor : String} :
    ancestor ∈ (c.chain name).2 ↔ c.Descends name ancestor := by
  obtain ⟨above, hchain, hclimb⟩ := c.climb_chain name
  rw [hchain]
  constructor
  · intro hmem
    rcases List.mem_cons.mp hmem with rfl | habove
    · exact .refl
    · exact hclimb.descends habove
  · intro hdescends
    have hclosed := hclimb.closed fun other hother hne =>
      absurd (List.mem_singleton.mp hother) hne
    induction hdescends with
    | refl => exact List.mem_cons_self
    | tail _ hlast ih => exact hclosed _ ih _ hlast

theorem isSubclass_iff (c : Catalogue) {name ancestor : String} :
    (c.isSubclass name ancestor).2 = true ↔ c.Descends name ancestor := by
  rw [← mem_chain_iff]
  exact List.contains_iff_mem

end Catalogue

end ViewSheet
