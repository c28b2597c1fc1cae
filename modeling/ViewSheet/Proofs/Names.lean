/-
  Name maps and growing lists, as the proofs read them.

  1. **Names once**: the names of a map built by insertions are distinct (`nodup_keys_insert`), and
     then a name's value is the one that stands beside it (`get?_eq_some_iff`).

  2. **Lists without repetition**: adding texts with `insertNew` gives each of them once
     (`mem_foldl_insertNew`, `nodup_foldl_insertNew`).
-/
import Mathlib.Data.List.Induction
import ViewSheet.NameMap
import ViewSheet.Sheet.Placeholder

namespace ViewSheet

theorem nodup_append_single {α : Type} {xs : List α} (h : xs.Nodup) {x : α} (hx : x ∉ xs) :
    (xs ++ [x]).Nodup := by
  rw [List.nodup_append]
  refine ⟨h, by simp, ?_⟩
  intro a ha b hb hab
  rw [List.mem_singleton] at hb
  exact hx (hb ▸ hab ▸ ha)

namespace NameMap

variable {ν : Type}

/-! ## Lookup -/

theorem get?_insert (m : NameMap ν) (name other : String) (value : ν) :
    (m.insert name value).get? other = if other = name then some value else m.get? other := by
  split
  · rename_i h
    rw [h, get?_insert_self]
  · rename_i h
    exact get?_insert_of_ne m value h

theorem mem_keys_iff {m : NameMap ν} {name : String} :
    name ∈ m.keys ↔ (m.get? name).isSome = true := by
  obtain ⟨es⟩ := m
  simp only [keys, get?]
  induction es with
  | nil => simp [find]
  | cons p rest ih =>
    obtain ⟨n, v⟩ := p
    rw [List.map_cons, List.mem_cons, find]
    by_cases hn : n = name
    · simp [hn]
    · rw [if_neg hn, ← ih]
      simp [Ne.symm hn]

/-- Of two values put under one name the later stays. -/
theorem insert_insert (m : NameMap ν) (name : String) (earlier later : ν) :
    (m.insert name earlier).insert name later = m.insert name later := by
  obtain ⟨es⟩ := m
  simp only [insert, mk.injEq]
  induction es with
  | nil =>
    rw [put, put, put]
    exact if_pos rfl
  | cons p rest ih =>
    obtain ⟨n, v⟩ := p
    by_cases hn : n = name
    · rw [put, if_pos hn, put, if_pos hn, put, if_pos hn]
    · rw [put, if_neg hn, put, if_neg hn, ih, put, if_neg hn]

theorem nodup_keys_insert {m : NameMap ν} (h : m.keys.Nodup) (name : String) (value : ν) :
    (m.insert name value).keys.Nodup := by
  rw [keys_insert]
  split
  · exact h
  · rename_i hn
    exact nodup_append_single h hn

/-- The value of a name stands beside it. -/
theorem mem_of_get? {m : NameMap ν} {name : String} {value : ν} (h : m.get? name = some value) :
    (name, value) ∈ m.entries := by
  obtain ⟨es⟩ := m
  simp only [get?] at *
  induction es with
  | nil => cases h
  | cons p rest ih =>
    obtain ⟨n, v⟩ := p
    rw [find] at h
    split at h
    · rename_i hn
      rw [Option.some.injEq] at h
      rw [hn, h]
      exact List.mem_cons_self
    · exact List.mem_cons_of_mem _ (ih h)

/-- In a map with distinct names, the value of a name is the one beside it. -/
theorem get?_eq_some_iff {m : NameMap ν} (h : m.keys.Nodup) {name : String} {value : ν} :
    m.get? name = some value ↔ (name, value) ∈ m.entries := by
  obtain ⟨es⟩ := m
  simp only [keys, get?] at *
  induction es with
  | nil => simp [find]
  | cons p rest ih =>
    obtain ⟨n, v⟩ := p
    rw [List.map_cons, List.nodup_cons] at h
    rw [find, List.mem_cons, Prod.mk.injEq]
    by_cases hn : n = name
    · have hrest : (name, value) ∉ rest := by
        intro hm
        have hkey := List.mem_map_of_mem (f := Prod.fst) hm
        exact h.1 (hn ▸ hkey)
      simp [hn, hrest, eq_comm]
    · simp [hn, Ne.symm hn, ih h.2]

/-! ## Lists of pairs -/

/-- What a list of pairs inserted from left to right has under a name, it held there. -/
theorem mem_of_get?_ofList {pairs : List (String × ν)} {name : String} {value : ν}
    (h : (ofList pairs).get? name = some value) : (name, value) ∈ pairs := by
  have hfold : ∀ (ps : List (String × ν)) (m : NameMap ν),
      (ps.foldl (fun m p => m.insert p.1 p.2) m).get? name = some value →
      (name, value) ∈ ps ∨ m.get? name = some value := by
    intro ps
    induction ps with
    | nil => exact fun _ hm => Or.inr hm
    | cons p rest ih =>
      intro m hm
      rcases ih _ hm with hrest | hinsert
      · exact Or.inl (List.mem_cons_of_mem p hrest)
      · rw [get?_insert] at hinsert
        split at hinsert
        · rename_i hname
          rw [Option.some.injEq] at hinsert
          exact Or.inl (by rw [hname, ← hinsert]; exact List.mem_cons_self)
        · exact Or.inr hinsert
  rcases hfold pairs empty h with hmem | hnone
  · exact hmem
  · cases hnone

theorem find_map {μ : Type} (f : ν → μ) (name : String) (es : List (String × ν)) :
    find name (es.map fun p => (p.1, f p.2)) = (find name es).map f := by
  induction es with
  | nil => rfl
  | cons p rest ih =>
    obtain ⟨n, v⟩ := p
    rw [List.map_cons, find, find]
    split
    · rfl
    · exact ih

theorem put_map {μ : Type} (f : ν → μ) (name : String) (value : ν) (es : List (String × ν)) :
    put name (f value) (es.map fun p => (p.1, f p.2)) =
      (put name value es).map fun p => (p.1, f p.2) := by
  induction es with
  | nil => rfl
  | cons p rest ih =>
    obtain ⟨n, v⟩ := p
    rw [List.map_cons, put, put]
    split
    · rfl
    · rw [List.map_cons, ih]

end NameMap

/-! ## Lists that grow without repetition -/

section
variable {α : Type} [DecidableEq α]

theorem mem_insertNew {xs : List α} {x y : α} : y ∈ insertNew xs x ↔ y ∈ xs ∨ y = x := by
  unfold insertNew
  split
  · rename_i h
    constructor
    · exact Or.inl
    · rintro (hy | rfl)
      · exact hy
      · exact h
  · simp

theorem nodup_insertNew {xs : List α} (h : xs.Nodup) (x : α) : (insertNew xs x).Nodup := by
  unfold insertNew
  split
  · exact h
  · rename_i hx
    exact nodup_append_single h hx

theorem mem_foldl_insertNew {xs ys : List α} {y : α} :
    y ∈ ys.foldl insertNew xs ↔ y ∈ xs ∨ y ∈ ys := by
  induction ys generalizing xs with
  | nil => simp
  | cons z rest ih => rw [List.foldl_cons, ih, mem_insertNew, List.mem_cons, or_assoc]

theorem nodup_foldl_insertNew {xs : List α} (h : xs.Nodup) (ys : List α) :
    (ys.foldl insertNew xs).Nodup := by
  induction ys generalizing xs with
  | nil => exact h
  | cons z rest ih => exact ih (nodup_insertNew h z)

/-- What is taken in earlier was there first: some of it stands before all of what comes later. -/
theorem pairwise_foldl_insertNew (xs : List α) :
    (xs.foldl insertNew []).Pairwise fun a b => ∃ before after,
      xs = before ++ a :: after ∧ b ∉ before := by
  induction xs using List.reverseRecOn with
  | nil => exact List.Pairwise.nil
  | append_singleton xs x ih =>
    have hgrown := ih.imp fun {a b} ⟨before, after, hsplit, hb⟩ =>
      (⟨before, after ++ [x], by rw [hsplit, List.append_assoc, List.cons_append], hb⟩ :
        ∃ before after, xs ++ [x] = before ++ a :: after ∧ b ∉ before)
    rw [List.foldl_append, List.foldl_cons, List.foldl_nil, insertNew]
    split
    · exact hgrown
    · rename_i hnew
      refine List.pairwise_append.mpr ⟨hgrown, List.pairwise_singleton _ x, fun a ha b hb => ?_⟩
      -- the new one is nowhere among those before it
      rw [List.mem_singleton.mp hb]
      have hx : x ∉ xs := fun hmem => hnew (mem_foldl_insertNew.mpr (Or.inr hmem))
      obtain ⟨before, after, hsplit⟩ :=
        List.append_of_mem ((mem_foldl_insertNew.mp ha).resolve_left List.not_mem_nil)
      exact ⟨before, after ++ [x], by rw [hsplit, List.append_assoc, List.cons_append],
        fun hmem => hx (hsplit ▸ List.mem_append_left _ hmem)⟩

/-- Taking in what is new, one after the other, keeps the first of each. -/
theorem foldl_insertNew [BEq α] [LawfulBEq α] (seen more : List α) :
    more.foldl insertNew seen = seen ++ (more.filter (!seen.contains ·)).eraseDups := by
  induction more generalizing seen with
  | nil => simp
  | cons a rest ih =>
    rw [List.foldl_cons, ih, insertNew, List.filter_cons]
    by_cases ha : a ∈ seen
    · rw [if_pos ha, if_neg (by simpa using ha)]
    · rw [if_neg ha, if_pos (by simpa using ha), List.eraseDups_cons, List.filter_filter,
        List.append_assoc, List.singleton_append]
      congr 3
      refine List.filter_congr fun b _ => ?_
      rw [Bool.eq_iff_iff]
      simp [and_comm]

theorem foldl_insertNew_nil [BEq α] [LawfulBEq α] (xs : List α) :
    xs.foldl insertNew [] = xs.eraseDups := by
  rw [foldl_insertNew, List.nil_append]
  exact congrArg List.eraseDups (List.filter_eq_self.mpr fun _ _ => rfl)

end

end ViewSheet
