/-
  Descent: where the lists of attached views lead.

  1. **Specification**: a view *bears* the views that are attached to it, and *spans* itself and
     whatever is reached from it downwards.  A store is *acyclic* if no view comes up again below
     itself.

  2. **The search**: `Search` is the search for a view as it would go without a bound, depth first.
     It has a derivation exactly if it comes to an end, and then its answer is the right one
     (`Search.iff_spans`).

  3. **The crux**: on its way down, no path of an acyclic store meets a view twice, so no path is
     longer than the store is large (`shallow_of_acyclic`).  So the search ends, and the bounded
     `holds` gives its answer (`search_holds`).

  4. **One step**: a view that does not span its new parent can be attached without closing a
     circle (`Acyclic.attach`), and it is then attached once more than before
     (`count_attachments_attach`).
-/
import Mathlib.Logic.Relation
import Mathlib.Data.List.Perm.Subperm
import ViewSheet.Proofs.Wiring

namespace ViewSheet

namespace ViewStore

variable {s t : ViewStore}

/-! ## Bearing and spanning -/

/-- The second view is attached to the first. -/
def Bears (s : ViewStore) (parent child : ViewId) : Prop := child ∈ s.subviews parent

/-- The second view is the first or anywhere below it. -/
def Spans (s : ViewStore) : ViewId → ViewId → Prop := Relation.ReflTransGen s.Bears

/-- No view comes up again below itself. -/
def Acyclic (s : ViewStore) : Prop := ∀ id, ¬ Relation.TransGen s.Bears id id

/-- A view that bears another is there. -/
theorem Bears.has {parent child : ViewId} (h : s.Bears parent child) : s.Has parent := by
  unfold Bears subviews at h
  split at h
  · rename_i v hv
    exact has_iff.mpr ⟨v, hv⟩
  · cases h

/-- A store with the lists of an acyclic one is acyclic. -/
theorem Acyclic.of_subviews (h : s.Acyclic) (hsub : ∀ id, t.subviews id = s.subviews id) :
    t.Acyclic := by
  intro id hcircle
  have hle : t.Bears ≤ s.Bears := fun parent child hbears => by
    rw [Bears, hsub] at hbears
    exact hbears
  exact h id (Relation.TransGen.mono hle id id hcircle)

theorem acyclic_empty : empty.Acyclic := by
  intro id hcircle
  obtain ⟨child, hbears, -⟩ := Relation.TransGen.head'_iff.mp hcircle
  exact absurd (Bears.has hbears) (Nat.not_lt_zero _)

/-- A search below a view finds nothing but what the view spans. -/
theorem spans_of_reaches {target : ViewId} (levels : Nat) {view : ViewId}
    (h : s.reaches target levels view = true) : s.Spans view target := by
  induction levels generalizing view with
  | zero =>
    rw [reaches, decide_eq_true_eq] at h
    rw [h]
    exact .refl
  | succ n ih =>
    rw [reaches, Bool.or_eq_true, decide_eq_true_eq, List.any_eq_true] at h
    rcases h with rfl | ⟨child, hchild, hreach⟩
    · exact .refl
    · exact .head hchild (ih hreach)

/-! ## The search without a bound -/

/-- The search for a view among others and below them, one after the other, comes to an end with
    this answer.  It ends with the first hit. -/
inductive Search (s : ViewStore) (target : ViewId) : List ViewId → Bool → Prop where
  | exhausted : Search s target [] false
  | here (rest : List ViewId) : Search s target (target :: rest) true
  | under {view : ViewId} (rest : List ViewId) (hne : view ≠ target)
      (h : Search s target (s.subviews view) true) : Search s target (view :: rest) true
  | onward {view : ViewId} {rest : List ViewId} {found : Bool} (hne : view ≠ target)
      (h : Search s target (s.subviews view) false) (hrest : Search s target rest found) :
      Search s target (view :: rest) found

/-- The first of the views that a path leads through is the target, or the path goes on below. -/
theorem spans_iff_of_ne {view target : ViewId} (hne : view ≠ target) :
    s.Spans view target ↔ ∃ child ∈ s.subviews view, s.Spans child target := by
  constructor
  · intro h
    rcases Relation.ReflTransGen.cases_head h with rfl | ⟨child, hbears, hspans⟩
    · exact absurd rfl hne
    · exact ⟨child, hbears, hspans⟩
  · rintro ⟨child, hbears, hspans⟩
    exact .head hbears hspans

/-- **A search that ends has the right answer.** -/
theorem Search.iff_spans {target : ViewId} {views : List ViewId} {found : Bool}
    (h : s.Search target views found) : found = true ↔ ∃ view ∈ views, s.Spans view target := by
  induction h with
  | exhausted => simp
  | here rest => exact iff_of_true rfl ⟨target, List.mem_cons_self, .refl⟩
  | under rest hne _ ih =>
    have hspans := (spans_iff_of_ne hne).mpr (ih.mp rfl)
    exact iff_of_true rfl ⟨_, List.mem_cons_self, hspans⟩
  | onward hne _ _ ih ihRest =>
    -- nothing is found in or below the first view, so the rest decides
    have hnot := mt (spans_iff_of_ne hne).mp (mt ih.mpr Bool.false_ne_true)
    rw [ihRest, List.exists_mem_cons_iff]
    exact ⟨Or.inr, fun h => h.resolve_left hnot⟩

/-! ## How deep a search goes -/

/-- No path down from the view has more steps than this. -/
def Shallow (s : ViewStore) (levels : Nat) (view : ViewId) : Prop :=
  ∀ path, List.IsChain s.Bears (view :: path) → path.length ≤ levels

theorem Shallow.child {levels : Nat} {view child : ViewId} (h : s.Shallow (levels + 1) view)
    (hbears : s.Bears view child) : s.Shallow levels child := by
  intro path hpath
  have hlonger := h (child :: path) (.cons_cons hbears hpath)
  rw [List.length_cons] at hlonger
  omega

theorem Shallow.subviews_eq_nil {view : ViewId} (h : s.Shallow 0 view) : s.subviews view = [] := by
  rw [List.eq_nil_iff_forall_not_mem]
  intro child hbears
  have hlong := h [child] (.cons_cons hbears (.singleton child))
  rw [List.length_singleton] at hlong
  omega

/-- A search ends in so many levels if no path is deeper, and then the bound cuts nothing off. -/
theorem search_reaches {target : ViewId} (levels : Nat) {views : List ViewId}
    (h : ∀ view ∈ views, s.Shallow levels view) :
    s.Search target views (views.any (s.reaches target levels)) := by
  induction levels generalizing views with
  | zero =>
    induction views with
    | nil => exact .exhausted
    | cons view rest ih =>
      have hrest := ih fun v hv => h v (List.mem_cons_of_mem view hv)
      by_cases hhere : view = target
      · subst hhere
        rw [List.any_cons, reaches, decide_eq_true rfl, Bool.true_or]
        exact .here rest
      · -- nothing hangs from the view, so the search goes on at once
        have hbare := (h view List.mem_cons_self).subviews_eq_nil
        rw [List.any_cons, reaches, decide_eq_false hhere, Bool.false_or]
        refine .onward hhere ?_ hrest
        rw [hbare]
        exact .exhausted
  | succ n ihLevels =>
    induction views with
    | nil => exact .exhausted
    | cons view rest ih =>
      have hrest := ih fun v hv => h v (List.mem_cons_of_mem view hv)
      have hbelow := ihLevels fun child hchild => (h view List.mem_cons_self).child hchild
      by_cases hhere : view = target
      · subst hhere
        rw [List.any_cons, reaches, decide_eq_true rfl, Bool.true_or, Bool.true_or]
        exact .here rest
      · rw [List.any_cons, reaches, decide_eq_false hhere, Bool.false_or]
        cases hfound : (s.subviews view).any (s.reaches target n) with
        | true =>
          rw [hfound] at hbelow
          exact .under rest hhere hbelow
        | false =>
          rw [hfound] at hbelow
          rw [Bool.false_or]
          exact .onward hhere hbelow hrest

/-! ## Paths of an acyclic store -/

/-- Every view on a path but the last bears the next one. -/
theorem has_of_mem_dropLast {path : List ViewId} (h : List.IsChain s.Bears path) {id : ViewId}
    (hid : id ∈ path.dropLast) : s.Has id := by
  induction h with
  | nil => cases hid
  | singleton a => cases hid
  | cons_cons hbears _ ih =>
    rw [List.dropLast_cons_cons, List.mem_cons] at hid
    rcases hid with rfl | hlater
    · exact hbears.has
    · exact ih hlater

/-- A path meets no view twice. -/
theorem Acyclic.nodup (h : s.Acyclic) {path : List ViewId} (hpath : List.IsChain s.Bears path) :
    path.Nodup := by
  have hchain : List.IsChain (Relation.TransGen s.Bears) path :=
    hpath.imp fun _ _ hbears => .single hbears
  refine (List.isChain_iff_pairwise.mp hchain).imp fun hbelow heq => ?_
  subst heq
  exact h _ hbelow

/-- The identities of all views there are. -/
def ids (s : ViewStore) : List ViewId := (List.range s.size).map ViewId.mk

theorem mem_ids {id : ViewId} : id ∈ s.ids ↔ s.Has id := by
  rw [ids, List.mem_map]
  constructor
  · rintro ⟨i, hi, rfl⟩
    exact List.mem_range.mp hi
  · intro hid
    exact ⟨id.index, List.mem_range.mpr hid, rfl⟩

/-- **No path of an acyclic store has more steps than there are views.** -/
theorem shallow_of_acyclic (h : s.Acyclic) (view : ViewId) : s.Shallow s.size view := by
  intro path hpath
  have hnodup : (view :: path).dropLast.Nodup :=
    (List.dropLast_sublist (view :: path)).nodup (h.nodup hpath)
  have hsub : (view :: path).dropLast ⊆ s.ids := fun id hid =>
    mem_ids.mpr (has_of_mem_dropLast hpath hid)
  have hle := (List.subperm_of_subset hnodup hsub).length_le
  rw [List.length_dropLast, List.length_cons, ids, List.length_map, List.length_range] at hle
  omega

/-- **In an acyclic store every search ends, with the answer of `holds`.** -/
theorem search_holds (h : s.Acyclic) (view target : ViewId) :
    s.Search target [view] (s.holds view target) := by
  have hsearch : s.Search target [view] ([view].any (s.reaches target s.size)) :=
    search_reaches s.size fun v _ => shallow_of_acyclic h v
  rw [List.any_cons, List.any_nil, Bool.or_false] at hsearch
  exact hsearch

theorem holds_iff_spans (h : s.Acyclic) {view target : ViewId} :
    s.holds view target = true ↔ s.Spans view target := by
  rw [(search_holds h view target).iff_spans]
  simp

/-! ## Attaching one more view -/

theorem bears_attach {parent : ViewId} (hparent : s.Has parent) {child a b : ViewId} :
    (s.attach parent child).Bears a b ↔ s.Bears a b ∨ (a = parent ∧ b = child) := by
  unfold Bears
  rw [subviews_attach hparent]
  split
  · rename_i ha
    rw [ha, List.mem_append, List.mem_singleton]
    simp
  · rename_i ha
    simp [ha]

/-- A way down that leads through one more edge was there before, or passes the edge. -/
theorem transGen_attach {parent : ViewId} (hparent : s.Has parent) {child a b : ViewId}
    (h : Relation.TransGen (s.attach parent child).Bears a b) :
    Relation.TransGen s.Bears a b ∨ (s.Spans a parent ∧ s.Spans child b) := by
  induction h with
  | single hbears =>
    rcases (bears_attach hparent).mp hbears with hold | ⟨rfl, rfl⟩
    · exact Or.inl (.single hold)
    · exact Or.inr ⟨.refl, .refl⟩
  | tail _ hbears ih =>
    rcases (bears_attach hparent).mp hbears with hold | ⟨rfl, rfl⟩
    · rcases ih with hway | ⟨hto, hfrom⟩
      · exact Or.inl (hway.tail hold)
      · exact Or.inr ⟨hto, hfrom.tail hold⟩
    · rcases ih with hway | ⟨hto, -⟩
      · exact Or.inr ⟨hway.to_reflTransGen, .refl⟩
      · exact Or.inr ⟨hto, .refl⟩

/-- **A view that does not span its new parent closes no circle.** -/
theorem Acyclic.attach (h : s.Acyclic) {parent child : ViewId} (hparent : s.Has parent)
    (hfree : ¬ s.Spans child parent) : (s.attach parent child).Acyclic := by
  intro id hcircle
  rcases transGen_attach hparent hcircle with hold | ⟨hto, hfrom⟩
  · exact h id hold
  · exact hfree (hfrom.trans hto)

/-! ## All lists together -/

/-- What is attached, list after list. -/
def attachments (s : ViewStore) : List ViewId := s.ids.flatMap s.subviews

theorem mem_attachments {id : ViewId} : id ∈ s.attachments ↔ ∃ parent, s.Bears parent id := by
  rw [attachments, List.mem_flatMap]
  constructor
  · rintro ⟨parent, -, hbears⟩
    exact ⟨parent, hbears⟩
  · rintro ⟨parent, hbears⟩
    exact ⟨parent, mem_ids.mpr hbears.has, hbears⟩

/-- A list that gets longer by one makes all lists together longer by one. -/
theorem perm_flatMap_of_append {α β : Type} {f g : α → List β} {l : List α} {a : α} {b : β}
    (hnodup : l.Nodup) (ha : a ∈ l) (hat : g a = f a ++ [b]) (hoff : ∀ c, c ≠ a → g c = f c) :
    (l.flatMap g).Perm (b :: l.flatMap f) := by
  induction l with
  | nil => cases ha
  | cons c rest ih =>
    obtain ⟨hnot, hrest⟩ := List.nodup_cons.mp hnodup
    rw [List.flatMap_cons, List.flatMap_cons]
    rcases List.mem_cons.mp ha with rfl | hlater
    · -- the list comes first, and the others stay as they are
      have hsame : rest.flatMap g = rest.flatMap f := by
        refine List.flatMap_congr fun d hd => hoff d ?_
        rintro rfl
        exact hnot hd
      rw [hat, hsame, List.append_assoc]
      exact List.perm_middle
    · have hne : c ≠ a := by
        rintro rfl
        exact hnot hlater
      rw [hoff c hne]
      exact ((ih hrest hlater).append_left (f c)).trans List.perm_middle

theorem nodup_ids (s : ViewStore) : s.ids.Nodup := by
  rw [ids, List.Nodup, List.pairwise_map]
  exact List.nodup_range.imp fun hne heq => hne (congrArg ViewId.index heq)

theorem count_attachments_attach {parent : ViewId} (hparent : s.Has parent) (child id : ViewId) :
    (s.attach parent child).attachments.count id =
      s.attachments.count id + if child = id then 1 else 0 := by
  have hids : (s.attach parent child).ids = s.ids := by
    rw [ids, ids, size_attach]
  have hperm : ((s.attach parent child).attachments).Perm (child :: s.attachments) := by
    rw [attachments, attachments, hids]
    refine perm_flatMap_of_append s.nodup_ids (mem_ids.mpr hparent) ?_ fun other hne => ?_
    · rw [subviews_attach hparent, if_pos rfl]
    · rw [subviews_attach hparent, if_neg hne]
  rw [hperm.count_eq, List.count_cons]
  simp

/-- All lists together stay as they are if each does, also where bare views are added. -/
theorem attachments_congr (hsize : s.size ≤ t.size) (hsub : ∀ id, t.subviews id = s.subviews id) :
    t.attachments = s.attachments := by
  have hsubviews : t.subviews = s.subviews := funext hsub
  obtain ⟨more, hmore⟩ := Nat.exists_eq_add_of_le hsize
  have hnone : ((List.range more).map fun i => ViewId.mk (s.size + i)).flatMap s.subviews = [] := by
    rw [List.flatMap_eq_nil_iff]
    intro id hid
    obtain ⟨i, -, rfl⟩ := List.mem_map.mp hid
    rw [List.eq_nil_iff_forall_not_mem]
    intro child hbears
    have hlt : s.size + i < s.size := Bears.has hbears
    omega
  rw [attachments, attachments, hsubviews, ids, ids, hmore, List.range_add, List.map_append,
    List.flatMap_append, List.map_map]
  show _ ++ ((List.range more).map fun i => ViewId.mk (s.size + i)).flatMap s.subviews = _
  rw [hnone, List.append_nil]

end ViewStore

end ViewSheet
