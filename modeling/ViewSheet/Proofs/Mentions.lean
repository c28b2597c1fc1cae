/-
  Mentions: the index from placeholders to the properties whose text holds them.

  1. **Invariant**: `Declaration.Indexed`.  A declaration goes by the name it is found under, states
     a property once, and lists a property under a placeholder exactly when the property's present
     text holds the placeholder.  It holds in every reachable document (`Reachable.indexed`).

  2. **Use**: filling in reads no data key but those of the placeholders (`fillKeys_congr`).  So a
     property that is not affected by a change of data has the same text before and after
     (`filled?_eq_of_not_mem_affectedKeys`).
-/
import ViewSheet.Proofs.Documents
import ViewSheet.Scene.Update

namespace ViewSheet

/-! ## One entry of the index -/

/-- The index lists the property under the placeholder. -/
def Lists (mentions : NameMap (List String)) (placeholder key : String) : Prop :=
  ∃ keys, mentions.get? placeholder = some keys ∧ key ∈ keys

theorem lists_iff_mem {mentions : NameMap (List String)} (h : mentions.keys.Nodup)
    {placeholder key : String} : Lists mentions placeholder key ↔
      ∃ keys, (placeholder, keys) ∈ mentions.entries ∧ key ∈ keys := by
  simp only [Lists, NameMap.get?_eq_some_iff h]

namespace Declaration

theorem dependsOn_iff {d : Declaration} {key placeholder : String} :
    d.dependsOn key placeholder = true ↔ Lists d.mentions placeholder key := by
  unfold dependsOn Lists
  cases d.mentions.get? placeholder with
  | none => simp
  | some keys => simp

/-! ## Forgetting and mentioning -/

theorem mem_entries_forget {mentions : NameMap (List String)} {key placeholder : String}
    {keys : List String} :
    (placeholder, keys) ∈ (forget mentions key).entries ↔
      ∃ old, (placeholder, old) ∈ mentions.entries ∧ keys = old.filter (· ≠ key) ∧ keys ≠ [] := by
  simp only [forget, List.mem_filter, List.mem_map, Prod.mk.injEq, Prod.exists, Bool.not_eq_true',
    List.isEmpty_eq_false_iff]
  constructor
  · rintro ⟨⟨p, old, hold, rfl, rfl⟩, hne⟩
    exact ⟨old, hold, rfl, hne⟩
  · rintro ⟨old, hold, rfl, hne⟩
    exact ⟨⟨placeholder, old, hold, rfl, rfl⟩, hne⟩

theorem nodup_keys_forget {mentions : NameMap (List String)} (h : mentions.keys.Nodup)
    (key : String) : (forget mentions key).keys.Nodup := by
  have hsame : (mentions.entries.map fun e => (e.1, e.2.filter (· ≠ key))).map Prod.fst
      = mentions.keys := by
    simp only [List.map_map, NameMap.keys]
    rfl
  rw [NameMap.keys] at hsame
  have hsub := (List.filter_sublist (p := fun e => !e.2.isEmpty)
    (l := mentions.entries.map fun e => (e.1, e.2.filter (· ≠ key)))).map Prod.fst
  rw [hsame] at hsub
  exact hsub.nodup h

theorem lists_forget {mentions : NameMap (List String)} (h : mentions.keys.Nodup)
    {key placeholder other : String} :
    Lists (forget mentions key) placeholder other ↔
      other ≠ key ∧ Lists mentions placeholder other := by
  rw [lists_iff_mem (nodup_keys_forget h key), lists_iff_mem h]
  constructor
  · rintro ⟨keys, hkeys, hother⟩
    obtain ⟨old, hold, rfl, -⟩ := mem_entries_forget.mp hkeys
    rw [List.mem_filter, decide_eq_true_eq] at hother
    exact ⟨hother.2, old, hold, hother.1⟩
  · rintro ⟨hne, old, hold, hother⟩
    have hmem : other ∈ old.filter (· ≠ key) := by
      rw [List.mem_filter, decide_eq_true_eq]
      exact ⟨hother, hne⟩
    exact ⟨_, mem_entries_forget.mpr ⟨old, hold, rfl, List.ne_nil_of_mem hmem⟩, hmem⟩

theorem lists_mention {mentions : NameMap (List String)} {key entered placeholder other : String} :
    Lists (mention mentions key entered) placeholder other ↔
      (placeholder = entered ∧ other = key) ∨ Lists mentions placeholder other := by
  unfold mention Lists
  rw [NameMap.get?_insert]
  by_cases hp : placeholder = entered
  · subst hp
    cases hold : mentions.get? placeholder with
    | none => simp [mem_insertNew]
    | some keys => simp [mem_insertNew, or_comm]
  · simp [hp]

theorem nodup_keys_mentions {mentions : NameMap (List String)} (h : mentions.keys.Nodup)
    (key : String) (entered : List String) :
    (entered.foldl (mention · key) mentions).keys.Nodup := by
  induction entered generalizing mentions with
  | nil => exact h
  | cons p rest ih => exact ih (NameMap.nodup_keys_insert h _ _)

theorem lists_mentions {mentions : NameMap (List String)} {key placeholder other : String}
    {entered : List String} :
    Lists (entered.foldl (mention · key) mentions) placeholder other ↔
      (placeholder ∈ entered ∧ other = key) ∨ Lists mentions placeholder other := by
  induction entered generalizing mentions with
  | nil => simp
  | cons p rest ih =>
    rw [List.foldl_cons, ih, lists_mention, List.mem_cons]
    constructor
    · rintro (⟨h, hk⟩ | ⟨h, hk⟩ | h)
      · exact Or.inl ⟨Or.inr h, hk⟩
      · exact Or.inl ⟨Or.inl h, hk⟩
      · exact Or.inr h
    · rintro (⟨h | h, hk⟩ | h)
      · exact Or.inr (Or.inl ⟨h, hk⟩)
      · exact Or.inl ⟨h, hk⟩
      · exact Or.inr (Or.inr h)

/-! ## The invariant of a declaration -/

/-- A declaration under its name whose index is exact. -/
structure Indexed (name : String) (d : Declaration) : Prop where
  /-- It goes by the name it is found under. -/
  named : d.name = name
  /-- It states a property once. -/
  stated : d.properties.keys.Nodup
  /-- The index has one entry for a placeholder. -/
  entered : d.mentions.keys.Nodup
  /-- The index lists what the texts hold. -/
  exact : ∀ key placeholder, d.dependsOn key placeholder = true ↔
    ∃ p, d.property? key = some p ∧ placeholder ∈ placeholders p.value

theorem indexed_empty (name : String) : Indexed name (.empty name) := by
  refine ⟨rfl, List.nodup_nil, List.nodup_nil, fun key placeholder => ?_⟩
  rw [dependsOn_iff]
  constructor
  · rintro ⟨keys, hkeys, -⟩
    simp [empty] at hkeys
  · rintro ⟨p, hp, -⟩
    simp [property?, empty] at hp

theorem Indexed.setProperty {name : String} {d : Declaration} (h : Indexed name d)
    (key value : String) (line : Nat) : Indexed name (d.setProperty key value line).2 := by
  refine ⟨h.named, NameMap.nodup_keys_insert h.stated key _,
    nodup_keys_mentions (nodup_keys_forget h.entered key) key _, fun other placeholder => ?_⟩
  have hold := h.exact other placeholder
  rw [dependsOn_iff] at hold ⊢
  show Lists ((placeholders value).foldl (mention · key) (forget d.mentions key))
    placeholder other ↔ _
  -- the old placeholders of the property are out before the new ones go in
  rw [lists_mentions, lists_forget h.entered, hold]
  by_cases hk : other = key
  · subst hk
    rw [property?_setProperty_self]
    simp
  · rw [property?_setProperty_of_ne d value line hk]
    simp [hk]

theorem Indexed.setHierarchy {name : String} {d : Declaration} (h : Indexed name d)
    (tree : Hierarchy) : Indexed name (d.setHierarchy tree).2 :=
  ⟨h.named, h.stated, h.entered, h.exact⟩

end Declaration

/-! ## The invariant of a document -/

/-- Every declaration is found under its name and has an exact index. -/
def Document.Indexed (doc : Document) : Prop := doc.Each Declaration.Indexed

theorem Declaration.stable_indexed : Declaration.Stable Declaration.Indexed where
  empty := Declaration.indexed_empty
  setProperty := fun _ _ key value line h => h.setProperty key value line
  setHierarchy := fun _ _ tree _ h => h.setHierarchy tree

/-- **The index is exact in every reachable document.** -/
theorem Document.Reachable.indexed {doc : Document} (h : doc.Reachable) : doc.Indexed :=
  h.each Declaration.stable_indexed

/-! ## What a property's text depends on -/

theorem fillKeys_congr {old new : DataBindings} {keys : List String}
    (h : ∀ k ∈ keys, old.get? k = new.get? k) (text : List Char) :
    fillKeys old keys text = fillKeys new keys text := by
  induction keys generalizing text with
  | nil => rfl
  | cons k rest ih =>
    have hrest := ih fun j hj => h j (List.mem_cons_of_mem k hj)
    rw [fillKeys, fillKeys, h k List.mem_cons_self]
    cases new.get? k with
    | none => exact hrest text
    | some bound => exact hrest _

namespace Declaration

/-- A text is filled in alike by data that agree on its placeholders. -/
theorem filled?_congr {d : Declaration} {key : String} {old new : DataBindings}
    (h : ∀ p, d.property? key = some p → ∀ k ∈ placeholders p.value, old.get? k = new.get? k) :
    d.filled? key old = d.filled? key new := by
  unfold filled?
  cases hp : d.property? key with
  | none => rfl
  | some p =>
    simp only [Option.map_some, fill, fillKeys_congr (h p hp)]

/-- A text without placeholders is not changed by any data. -/
theorem filled?_of_plain {d : Declaration} {key : String} {p : PropertyText}
    (hp : d.property? key = some p) (hplain : placeholders p.value = []) (data : DataBindings) :
    d.filled? key data = some p := by
  rw [filled?, hp, Option.map_some, fill, hplain, fillKeys, String.ofList_toList]

theorem property?_of_mem_setterKeys {d : Declaration} {key : String} (h : key ∈ d.setterKeys) :
    ∃ p, d.property? key = some p :=
  Option.isSome_iff_exists.mp (NameMap.mem_keys_iff.mp (List.mem_filter.mp h).1)

theorem Indexed.nodup_setterKeys {name : String} {d : Declaration} (h : d.Indexed name) :
    d.setterKeys.Nodup :=
  List.filter_sublist.nodup h.stated

/-- A property is affected by a change exactly if its text holds the placeholder of a key that is
    bound to something else afterwards. -/
theorem Indexed.mem_affectedKeys {name : String} {d : Declaration} (h : d.Indexed name)
    {old new : DataBindings} {key : String} :
    key ∈ Scene.affectedKeys d (old.changedKeys new) ↔ key ∈ d.setterKeys ∧
      ∃ p, d.property? key = some p ∧ ∃ k ∈ placeholders p.value, old.get? k ≠ new.get? k := by
  rw [Scene.affectedKeys, List.mem_filter, List.any_eq_true]
  simp only [DataBindings.mem_changedKeys, h.exact]
  constructor
  · rintro ⟨hkey, k, hk, p, hp, hheld⟩
    exact ⟨hkey, p, hp, k, hheld, hk⟩
  · rintro ⟨hkey, p, hp, k, hheld, hk⟩
    exact ⟨hkey, k, hk, p, hp, hheld⟩

/-- A property that a change does not affect has the same text before and after. -/
theorem Indexed.filled?_eq_of_not_mem_affectedKeys {name : String} {d : Declaration}
    (h : d.Indexed name) {old new : DataBindings} {key : String} (hkey : key ∈ d.setterKeys)
    (hout : key ∉ Scene.affectedKeys d (old.changedKeys new)) :
    d.filled? key old = d.filled? key new := by
  refine filled?_congr fun p hp k hk => ?_
  rw [h.mem_affectedKeys] at hout
  exact Decidable.byContradiction fun hne => hout ⟨hkey, p, hp, k, hk, hne⟩

end Declaration

/-! ## The declarations that are applied -/

namespace Scene

theorem mem_declaredNames {s : Scene} {name : String} :
    name ∈ s.declaredNames ↔ name ∈ s.nodeNames ∨ name = s.root := by
  rw [declaredNames, mem_foldl_insertNew, List.mem_append, List.mem_singleton]
  simp

theorem mem_configured {s : Scene} {d : Declaration} : d ∈ s.configured ↔
    (∃ name, (name ∈ s.nodeNames ∨ name = s.root) ∧
      s.definition.document.get? name = some d) ∧ d.setterKeys ≠ [] := by
  rw [configured, List.mem_filter, List.mem_filterMap]
  simp only [mem_declaredNames, Bool.not_eq_true', List.isEmpty_eq_false_iff]

/-- A declaration is applied under its own name. -/
theorem get?_of_mem_configured {s : Scene} (hdoc : s.definition.document.Indexed) {d : Declaration}
    (hd : d ∈ s.configured) : s.definition.document.get? d.name = some d := by
  obtain ⟨⟨name, -, hname⟩, -⟩ := mem_configured.mp hd
  rw [(hdoc name d hname).named]
  exact hname

/-- No two declarations that are applied go by one name. -/
theorem nodup_configured {s : Scene} (hdoc : s.definition.document.Indexed) :
    (s.configured.map (·.name)).Nodup := by
  have hdeclared : s.declaredNames.Nodup := nodup_foldl_insertNew List.nodup_nil _
  rw [List.Nodup, List.pairwise_map]
  refine List.Pairwise.filter _ ?_
  rw [List.pairwise_filterMap]
  -- two declarations of one name would be found under one declared name
  refine hdeclared.imp fun hne d hd e he heq => hne ?_
  rw [← (hdoc _ d hd).named, ← (hdoc _ e he).named, heq]

end Scene

end ViewSheet
