/-
  Preorder: trees whose numbers go up as one walks through them depth first.

  1. **Specification**: `Uncrossed` says that links do not cross.  Between a node and its parent
     stands nothing that hangs from before the parent.  A tree that is read is uncrossed, since each
     of its nodes hangs from the nearest that is indented less (`Nested.uncrossed`).

  2. **The crux** (`mem_walkFrom_iff`): what hangs below a node is the stretch of numbers behind it,
     up to the first that hangs from before it.  So nothing has to be said of chains of links.

  3. **Result** (`Uncrossed.walk_eq`): walking comes to the nodes in the order of their numbers, and
     finds each as deep as the number of links above it.
-/
import Mathlib.Data.List.Sort
import ViewSheet.Proofs.Nesting

namespace ViewSheet

namespace Hierarchy

/-! ## Links that do not cross -/

/-- Parents come before their children, and no link leads from between the ends of another to before
    it. -/
structure Uncrossed (h : Hierarchy) : Prop where
  before : ∀ i p, h.parent? i = some p → p < i
  between : ∀ i j p q, h.parent? i = some p → h.parent? j = some q → p < j → j < i → p ≤ q

/-- If nodes hang from the nearest that is indented less, links do not cross. -/
theorem Nested.uncrossed {h : Hierarchy} (hnested : h.Nested) : h.Uncrossed := by
  refine ⟨fun i p hp => (hnested i p hp).before, fun i j p q hp hq hpj hji => ?_⟩
  by_contra hqp
  have hi := hnested i p hp
  have hj := hnested j q hq
  have h1 := hi.less (by omega)
  have h2 := hi.last j hpj hji
  have h3 := hj.last p (by omega) hpj
  omega

theorem mem_children_of_parent? {h : Hierarchy} (hun : h.Uncrossed) {i p : Nat}
    (hp : h.parent? i = some p) : i ∈ h.children p :=
  mem_children_iff.mpr ⟨hun.before i p hp, hp⟩

/-- A node is one deeper than its parent. -/
theorem Uncrossed.depth_eq {h : Hierarchy} (hun : h.Uncrossed) {i p : Nat}
    (hp : h.parent? i = some p) : h.depth i = h.depth p + 1 :=
  depth_of_mem_children (mem_children_of_parent? hun hp)

/-- What stands between a node and its parent is as deep as the node, or deeper. -/
theorem Uncrossed.depth_le {h : Hierarchy} (hun : h.Uncrossed) {i p : Nat}
    (hp : h.parent? i = some p) {j : Nat} (hpj : p < j) (hji : j < i) : h.depth i ≤ h.depth j := by
  induction j using Nat.strongRecOn with
  | ind j ih =>
    have hi := lt_size_of_parent? hp
    obtain ⟨q, hq⟩ := exists_parent? (by omega) (Nat.lt_trans hji hi)
    have hqj := hun.before j q hq
    have hle := hun.between i j p q hp hq hpj hji
    have hdepth := hun.depth_eq hq
    rcases Nat.lt_or_eq_of_le hle with hlt | heq
    · have := ih q hqj hlt (by omega)
      omega
    · rw [hun.depth_eq hp, hdepth, heq]

/-! ## What hangs below a node -/

/-- The number `c` is behind `i`, and nothing from there up to it hangs from before `i`. -/
def Within (h : Hierarchy) (i c : Nat) : Prop :=
  i < c ∧ ∀ j, i < j → j ≤ c → ∃ q, h.parent? j = some q ∧ i ≤ q

theorem Within.trans {h : Hierarchy} {i k c : Nat} (hk : h.Within i k) (hc : h.Within k c) :
    h.Within i c := by
  refine ⟨Nat.lt_trans hk.1 hc.1, fun j hij hjc => ?_⟩
  rcases Nat.lt_or_ge k j with hkj | hjk
  · obtain ⟨q, hq, hle⟩ := hc.2 j hkj hjc
    exact ⟨q, hq, by have := hk.1; omega⟩
  · exact hk.2 j hij hjk

theorem Uncrossed.within_child {h : Hierarchy} (hun : h.Uncrossed) {i c : Nat}
    (hc : c ∈ h.children i) : h.Within i c := by
  have hp := parent?_of_mem_children hc
  refine ⟨lt_of_mem_children hc, fun j hij hjc => ?_⟩
  rcases Nat.lt_or_eq_of_le hjc with hlt | heq
  · have hsize := lt_size_of_mem_children hc
    obtain ⟨q, hq⟩ := exists_parent? (by omega) (Nat.lt_trans hlt hsize)
    exact ⟨q, hq, hun.between c j i q hp hq hij hlt⟩
  · exact ⟨i, heq ▸ hp, Nat.le_refl i⟩

/-- Walking from a node is walking from its children. -/
theorem walkFrom_eq (h : Hierarchy) (depth i : Nat) :
    h.walkFrom depth i =
      (h.children i).flatMap fun c => (c, depth) :: h.walkFrom (depth + 1) c := by
  conv_lhs => rw [walkFrom]
  rw [List.flatMap_subtype (g := fun c => (c, depth) :: h.walkFrom (depth + 1) c) fun _ _ => rfl,
    List.unattach_attach]

theorem mem_walkFrom {h : Hierarchy} {depth i : Nat} {x : Nat × Nat} :
    x ∈ h.walkFrom depth i ↔
      ∃ c ∈ h.children i, x = (c, depth) ∨ x ∈ h.walkFrom (depth + 1) c := by
  rw [walkFrom_eq, List.mem_flatMap]
  simp only [List.mem_cons]

/-- Whoever comes to a node comes to its children, one level deeper. -/
theorem mem_walkFrom_of_mem_children {h : Hierarchy} {depth i k d c : Nat}
    (hk : (k, d) ∈ h.walkFrom depth i) (hc : c ∈ h.children k) :
    (c, d + 1) ∈ h.walkFrom depth i := by
  induction depth, i using walkFrom.induct (h := h) with
  | case1 depth i ih =>
    obtain ⟨m, hm, heq | hbelow⟩ := mem_walkFrom.mp hk
    · obtain ⟨rfl, rfl⟩ := Prod.mk.inj heq
      exact mem_walkFrom.mpr ⟨k, hm, Or.inr (mem_walkFrom.mpr ⟨c, hc, Or.inl rfl⟩)⟩
    · exact mem_walkFrom.mpr ⟨m, hm, Or.inr (ih m hm hbelow)⟩

/-- Walking comes to what hangs below, and counts the links. -/
theorem Uncrossed.within_of_mem_walkFrom {h : Hierarchy} (hun : h.Uncrossed) {depth i : Nat}
    {x : Nat × Nat} (hx : x ∈ h.walkFrom depth i) :
    h.Within i x.1 ∧ x.2 + h.depth i + 1 = depth + h.depth x.1 := by
  induction depth, i using walkFrom.induct (h := h) with
  | case1 depth i ih =>
    obtain ⟨c, hc, rfl | hbelow⟩ := mem_walkFrom.mp hx
    · refine ⟨hun.within_child hc, ?_⟩
      rw [depth_of_mem_children hc, Nat.add_assoc]
    · obtain ⟨hwithin, hdepth⟩ := ih c hc hbelow
      refine ⟨(hun.within_child hc).trans hwithin, ?_⟩
      rw [depth_of_mem_children hc] at hdepth
      omega

theorem Uncrossed.mem_walkFrom_of_within {h : Hierarchy} (hun : h.Uncrossed) (depth : Nat)
    {i c : Nat} (hc : h.Within i c) : ∃ d, (c, d) ∈ h.walkFrom depth i := by
  induction c using Nat.strongRecOn with
  | ind c ih =>
    obtain ⟨q, hq, hle⟩ := hc.2 c hc.1 (Nat.le_refl c)
    have hqc := hun.before c q hq
    have hchild := mem_children_of_parent? hun hq
    rcases Nat.lt_or_eq_of_le hle with hlt | rfl
    · have hbelow : h.Within i q := ⟨hlt, fun j hij hjq => hc.2 j hij (by omega)⟩
      obtain ⟨d, hd⟩ := ih q hqc hbelow
      exact ⟨d + 1, mem_walkFrom_of_mem_children hd hchild⟩
    · exact ⟨depth, mem_walkFrom.mpr ⟨c, hchild, Or.inl rfl⟩⟩

/-- **What hangs below a node is a stretch of numbers behind it.** -/
theorem Uncrossed.mem_walkFrom_iff {h : Hierarchy} (hun : h.Uncrossed) (depth i c : Nat) :
    c ∈ (h.walkFrom depth i).map Prod.fst ↔ h.Within i c := by
  rw [List.mem_map]
  constructor
  · rintro ⟨x, hx, rfl⟩
    exact (hun.within_of_mem_walkFrom hx).1
  · intro hc
    obtain ⟨d, hd⟩ := hun.mem_walkFrom_of_within depth hc
    exact ⟨(c, d), hd, rfl⟩

/-! ## The order of the walk -/

/-- Numbers go up on the way. -/
theorem Uncrossed.pairwise_walkFrom {h : Hierarchy} (hun : h.Uncrossed) (depth i : Nat) :
    (h.walkFrom depth i).Pairwise fun x y => x.1 < y.1 := by
  induction depth, i using walkFrom.induct (h := h) with
  | case1 depth i ih =>
    rw [walkFrom_eq, List.pairwise_flatMap]
    constructor
    · intro c hc
      exact List.Pairwise.cons (fun x hx => (hun.within_of_mem_walkFrom hx).1.1) (ih c hc)
    · -- a later child would hang from behind an earlier one, if it stood among what is below it
      refine (pairwise_lt_childrenFrom i 1 h.nodes).imp_of_mem fun {c d} hc hd hcd x hx y hy => ?_
      have hic := lt_of_mem_children hc
      have hxd : x.1 < d := by
        rcases List.mem_cons.mp hx with rfl | hx
        · exact hcd
        · by_contra hge
          obtain ⟨q, hq, hle⟩ := (hun.within_of_mem_walkFrom hx).1.2 d hcd (by omega)
          rw [parent?_of_mem_children hd, Option.some.injEq] at hq
          omega
      have hdy : d ≤ y.1 := by
        rcases List.mem_cons.mp hy with rfl | hy
        · exact Nat.le_refl _
        · exact Nat.le_of_lt (hun.within_of_mem_walkFrom hy).1.1
      omega

/-- **Walking depth first comes to the nodes in the order of their numbers.** -/
theorem Uncrossed.walk_eq {h : Hierarchy} (hun : h.Uncrossed) :
    h.walk = (List.range' 1 h.nodes.length).map fun i => (i, h.depth i - 1) := by
  have hnumbers : h.walk.map Prod.fst = List.range' 1 h.nodes.length := by
    have hwalk : (h.walk.map Prod.fst).Pairwise (· < ·) :=
      List.pairwise_map.mpr (hun.pairwise_walkFrom 0 0)
    refine hwalk.eq_of_mem_iff (List.pairwise_lt_range' 1) fun c => ?_
    rw [walk, hun.mem_walkFrom_iff, List.mem_range'_1]
    constructor
    · intro hc
      obtain ⟨q, hq, -⟩ := hc.2 c hc.1 (Nat.le_refl c)
      have hsize := lt_size_of_parent? hq
      rw [size] at hsize
      have := hc.1
      omega
    · intro hc
      refine ⟨by omega, fun j hj hjc => ?_⟩
      obtain ⟨q, hq⟩ := exists_parent? (h := h) hj (by rw [size]; omega)
      exact ⟨q, hq, Nat.zero_le q⟩
  have hdepth : ∀ x ∈ h.walk, x = (x.1, h.depth x.1 - 1) := by
    intro x hx
    have := (hun.within_of_mem_walkFrom hx).2
    rw [depth_zero] at this
    exact Prod.ext rfl (by show x.2 = h.depth x.1 - 1; omega)
  rw [← hnumbers, List.map_map]
  conv_lhs => rw [← List.map_id h.walk]
  exact List.map_congr_left hdepth

end Hierarchy

end ViewSheet
