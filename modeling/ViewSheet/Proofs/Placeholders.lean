/-
  Placeholders: which keys a text mentions, and which properties the index lists under a key.

  1. **Program**: `placeholdersIn` goes through a text once and starts over at an opening brace
     inside a key; `setProperty` takes the old text of a property out of the index and enters the
     new one.

  2. **Specification**: a text mentions a key exactly when the key, with `#` and braces around it,
     stands somewhere in the text (`mem_placeholders`).  The scan passes over no placeholder, since
     what it passes over has no brace in it but those at its ends (`infix_append_close`).

  3. **Result** (`Document.mentions_inverse`): the index is the inverse of the properties in every
     reachable document, and has no entry that lists nothing.
-/
import ViewSheet.Proofs.Mentions
import Mathlib.Data.List.TakeWhile

namespace ViewSheet

open Text

/-! ## Keys in a text -/

/-- A placeholder as the program looks at it: its two first characters, then the key. -/
theorem placeholderFor_eq (key : String) :
    placeholderFor key = '#' :: '\x7b' :: (key.toList ++ ['\x7d']) := rfl

/-- Where a text opens a placeholder, it has that one, or one further on. -/
theorem infix_open_iff {key : String} {cs : List Char} :
    placeholderFor key <:+: '#' :: '\x7b' :: cs ↔
      (∃ after, cs = key.toList ++ '\x7d' :: after) ∨ placeholderFor key <:+: cs := by
  have hsecond : ¬ placeholderFor key <+: '\x7b' :: cs := by
    rw [placeholderFor_eq, List.cons_prefix_cons]
    rintro ⟨h, -⟩
    exact absurd h (by decide)
  rw [List.infix_cons_iff, List.infix_cons_iff, or_iff_right hsecond, placeholderFor_eq,
    List.cons_prefix_cons, List.cons_prefix_cons]
  refine or_congr_left ⟨?_, ?_⟩
  · rintro ⟨-, -, after, rfl⟩
    exact ⟨after, by rw [List.append_assoc]; rfl⟩
  · rintro ⟨after, rfl⟩
    exact ⟨rfl, rfl, after, by rw [List.append_assoc]; rfl⟩

theorem not_isPrefix_placeholderFor {key : String} {a b : Char} {cs : List Char}
    (h : ¬ (a = '#' ∧ b = '\x7b')) : ¬ placeholderFor key <+: a :: b :: cs := by
  rw [placeholderFor_eq, List.cons_prefix_cons, List.cons_prefix_cons]
  rintro ⟨rfl, rfl, -⟩
  exact h ⟨rfl, rfl⟩

/-- No placeholder starts in front of a stretch without opening braces: its second character is
    one. -/
theorem not_starts_plain {key : String} {c : Char} {passed rest : List Char}
    (hpassed : ∀ d ∈ passed, isBrace d = false) :
    ¬ placeholderFor key <+: c :: (passed ++ '\x7d' :: rest) := by
  cases passed with
  | nil => exact not_isPrefix_placeholderFor fun h => absurd h.2 (by decide)
  | cons d passed =>
    refine not_isPrefix_placeholderFor fun h => ?_
    have hd := hpassed d List.mem_cons_self
    rw [h.2] at hd
    exact absurd hd (by decide)

/-- No placeholder starts in a stretch without braces, nor at the closing brace behind it. -/
theorem infix_append_close {key : String} {passed : List Char}
    (hpassed : ∀ c ∈ passed, isBrace c = false) (rest : List Char) :
    placeholderFor key <:+: passed ++ '\x7d' :: rest ↔ placeholderFor key <:+: rest := by
  induction passed with
  | nil =>
    have hclose : ¬ placeholderFor key <+: '\x7d' :: rest := by
      rw [placeholderFor_eq, List.cons_prefix_cons]
      rintro ⟨h, -⟩
      exact absurd h (by decide)
    rw [List.nil_append, List.infix_cons_iff, or_iff_right hclose]
  | cons c passed ih =>
    have hrest : ∀ d ∈ passed, isBrace d = false :=
      fun d hd => hpassed d (List.mem_cons_of_mem c hd)
    rw [List.cons_append, List.infix_cons_iff, or_iff_right (not_starts_plain hrest), ih hrest]

/-- A key has something on it and no brace in it. -/
def IsKey (key : String) : Prop := key ≠ "" ∧ ∀ c ∈ key.toList, isBrace c = false

/-- Two stretches without braces, each up to a brace, are one. -/
theorem eq_of_append_brace {key passed after rest : List Char} {c : Char}
    (hkey : ∀ d ∈ key, isBrace d = false) (hpassed : ∀ d ∈ passed, isBrace d = false)
    (hc : isBrace c = true) (h : passed ++ c :: rest = key ++ '\x7d' :: after) :
    passed = key ∧ c = '\x7d' := by
  induction passed generalizing key with
  | nil =>
    cases key with
    | nil => exact ⟨rfl, (List.cons.inj h).1⟩
    | cons d key =>
      have hd := hkey d List.mem_cons_self
      rw [← (List.cons.inj h).1, hc] at hd
      cases hd
  | cons d passed ih =>
    have hd := hpassed d List.mem_cons_self
    cases key with
    | nil =>
      rw [(List.cons.inj h).1] at hd
      exact absurd hd (by decide)
    | cons e key =>
      obtain ⟨rfl, htail⟩ := List.cons.inj h
      obtain ⟨rfl, hclose⟩ := ih (fun x hx => hkey x (List.mem_cons_of_mem d hx))
        (fun x hx => hpassed x (List.mem_cons_of_mem d hx)) htail
      exact ⟨rfl, hclose⟩

/-- Up to the first brace there is none, and what is left starts with one. -/
theorem append_of_dropWhile {cs rest : List Char} {c : Char}
    (h : cs.dropWhile (!isBrace ·) = c :: rest) :
    cs = cs.takeWhile (!isBrace ·) ++ c :: rest ∧ isBrace c = true ∧
      ∀ d ∈ cs.takeWhile (!isBrace ·), isBrace d = false := by
  refine ⟨by rw [← h, List.takeWhile_append_dropWhile], ?_, fun d hd => ?_⟩
  · have hc := List.head_dropWhile_not (!isBrace ·) (l := cs) (by rw [h]; simp)
    simpa [h] using hc
  · simpa using List.mem_takeWhile_imp hd

theorem placeholdersIn_open_nil {cs : List Char} (h : cs.dropWhile (!isBrace ·) = []) :
    placeholdersIn ('#' :: '\x7b' :: cs) = [] := by
  rw [placeholdersIn, if_pos ⟨rfl, rfl⟩]
  dsimp only
  split
  · rfl
  · rename_i hsome
    rw [h] at hsome
    cases hsome

/-- What the scan does behind the two characters that open a placeholder. -/
theorem placeholdersIn_open {cs rest : List Char} {c : Char}
    (h : cs.dropWhile (!isBrace ·) = c :: rest) :
    placeholdersIn ('#' :: '\x7b' :: cs) =
      if c = '\x7d' then
        if (cs.takeWhile (!isBrace ·)).isEmpty then placeholdersIn rest
        else cs.takeWhile (!isBrace ·) :: placeholdersIn rest
      else placeholdersIn cs := by
  rw [placeholdersIn, if_pos ⟨rfl, rfl⟩]
  dsimp only
  split
  · rename_i hnone
    rw [h] at hnone
    cases hnone
  · rename_i c' rest' hsome
    rw [h] at hsome
    obtain ⟨rfl, rfl⟩ := List.cons.inj hsome
    rfl

/-- The scan of a text finds the keys whose placeholders stand in it. -/
theorem mem_placeholdersIn {key : String} (hkey : IsKey key) (text : List Char) :
    key.toList ∈ placeholdersIn text ↔ placeholderFor key <:+: text := by
  have hne : key.toList ≠ [] := fun h => hkey.1 (String.toList_inj.mp h)
  induction text using placeholdersIn.induct with
  | case1 =>
    rw [placeholdersIn, List.infix_nil]
    exact ⟨fun h => absurd h List.not_mem_nil, fun h => by cases h⟩
  | case2 a =>
    rw [placeholdersIn]
    refine ⟨fun h => absurd h List.not_mem_nil, fun h => ?_⟩
    have hlength := h.length_le
    rw [placeholderFor_eq] at hlength
    simp at hlength
  | case3 a b cs hstart hnone =>
    -- no brace follows, and a placeholder ends in one
    obtain ⟨rfl, rfl⟩ := hstart
    have hplain := List.dropWhile_eq_nil_iff.mp hnone
    rw [placeholdersIn_open_nil hnone]
    refine ⟨fun h => absurd h List.not_mem_nil, fun h => ?_⟩
    have hmem : '\x7d' ∈ '#' :: '\x7b' :: cs := h.subset (by rw [placeholderFor_eq]; simp)
    simp only [List.mem_cons, Char.reduceEq, false_or] at hmem
    have := hplain _ hmem
    exact absurd this (by decide)
  | case4 a b cs hstart passed rest hempty hdrop _ ih =>
    obtain ⟨rfl, rfl⟩ := hstart
    obtain ⟨hcs, hbrace, hplain⟩ := append_of_dropWhile hdrop
    -- empty braces are no placeholder
    have hhere : ¬ ∃ after, cs = key.toList ++ '\x7d' :: after := by
      rintro ⟨after, hafter⟩
      have heq := eq_of_append_brace hkey.2 hplain hbrace (hcs.symm.trans hafter)
      exact hne (heq.1.symm.trans (List.isEmpty_iff.mp hempty))
    rw [placeholdersIn_open hdrop, if_pos rfl, if_pos hempty, infix_open_iff, or_iff_right hhere,
      hcs, infix_append_close hplain]
    exact ih
  | case5 a b cs hstart passed rest hfull hdrop _ ih =>
    obtain ⟨rfl, rfl⟩ := hstart
    obtain ⟨hcs, hbrace, hplain⟩ := append_of_dropWhile hdrop
    have hhere : key.toList = cs.takeWhile (!isBrace ·) ↔
        ∃ after, cs = key.toList ++ '\x7d' :: after := by
      constructor
      · intro heq
        exact ⟨rest, heq ▸ hcs⟩
      · rintro ⟨after, hafter⟩
        exact (eq_of_append_brace hkey.2 hplain hbrace (hcs.symm.trans hafter)).1.symm
    have hlater : placeholderFor key <:+: cs ↔ placeholderFor key <:+: rest := by
      rw [hcs, infix_append_close hplain]
    rw [placeholdersIn_open hdrop, if_pos rfl, if_neg hfull, List.mem_cons, infix_open_iff, hhere,
      hlater]
    exact or_congr_right ih
  | case6 a b cs hstart c rest hdrop _ hopen ih =>
    obtain ⟨rfl, rfl⟩ := hstart
    obtain ⟨hcs, hbrace, hplain⟩ := append_of_dropWhile hdrop
    have hhere : ¬ ∃ after, cs = key.toList ++ '\x7d' :: after := by
      rintro ⟨after, hafter⟩
      exact hopen (eq_of_append_brace hkey.2 hplain hbrace (hcs.symm.trans hafter)).2
    rw [placeholdersIn_open hdrop, if_neg hopen, infix_open_iff, or_iff_right hhere]
    exact ih
  | case7 a b cs hstart ih =>
    rw [placeholdersIn, if_neg hstart, List.infix_cons_iff (a := a),
      or_iff_right (not_isPrefix_placeholderFor hstart)]
    exact ih

/-- The scan finds keys only. -/
theorem isKey_of_mem_placeholdersIn {key : String} {text : List Char}
    (h : key.toList ∈ placeholdersIn text) : IsKey key := by
  induction text using placeholdersIn.induct with
  | case1 =>
    rw [placeholdersIn] at h
    exact absurd h List.not_mem_nil
  | case2 a =>
    rw [placeholdersIn] at h
    exact absurd h List.not_mem_nil
  | case3 a b cs hstart hnone =>
    obtain ⟨rfl, rfl⟩ := hstart
    rw [placeholdersIn_open_nil hnone] at h
    exact absurd h List.not_mem_nil
  | case4 a b cs hstart passed rest hempty hdrop _ ih =>
    obtain ⟨rfl, rfl⟩ := hstart
    rw [placeholdersIn_open hdrop, if_pos rfl, if_pos hempty] at h
    exact ih h
  | case5 a b cs hstart passed rest hfull hdrop _ ih =>
    obtain ⟨rfl, rfl⟩ := hstart
    rw [placeholdersIn_open hdrop, if_pos rfl, if_neg hfull, List.mem_cons] at h
    rcases h with heq | h
    · refine ⟨fun hnil => hfull ?_, heq ▸ (append_of_dropWhile hdrop).2.2⟩
      rw [hnil] at heq
      exact List.isEmpty_iff.mpr heq.symm
    · exact ih h
  | case6 a b cs hstart c rest hdrop _ hopen ih =>
    obtain ⟨rfl, rfl⟩ := hstart
    rw [placeholdersIn_open hdrop, if_neg hopen] at h
    exact ih h
  | case7 a b cs hstart ih =>
    rw [placeholdersIn, if_neg hstart] at h
    exact ih h

/-- **A text mentions a key exactly when the key's placeholder stands in it.** -/
theorem mem_placeholders {text key : String} :
    key ∈ placeholders text ↔ IsKey key ∧ placeholderFor key <:+: text.toList := by
  have hscan : key ∈ placeholders text ↔ key.toList ∈ placeholdersIn text.toList := by
    rw [placeholders, ← List.foldl_map (f := String.ofList) (g := insertNew), mem_foldl_insertNew,
      List.mem_map]
    constructor
    · rintro (h | ⟨k, hk, rfl⟩)
      · exact absurd h List.not_mem_nil
      · rwa [String.toList_ofList]
    · exact fun h => Or.inr ⟨key.toList, h, String.ofList_toList⟩
  rw [hscan]
  constructor
  · intro h
    have hkey := isKey_of_mem_placeholdersIn h
    exact ⟨hkey, (mem_placeholdersIn hkey _).mp h⟩
  · rintro ⟨hkey, h⟩
    exact (mem_placeholdersIn hkey _).mpr h

/-! ## The index -/

/-- Every entry lists some properties, and each of them once. -/
def Occupied (mentions : NameMap (List String)) : Prop :=
  ∀ placeholder keys, mentions.get? placeholder = some keys → keys ≠ [] ∧ keys.Nodup

namespace Declaration

theorem occupied_forget {mentions : NameMap (List String)} (hnodup : mentions.keys.Nodup)
    (h : Occupied mentions) (key : String) : Occupied (forget mentions key) := by
  intro placeholder keys hkeys
  rw [NameMap.get?_eq_some_iff (nodup_keys_forget hnodup key)] at hkeys
  obtain ⟨old, hold, rfl, hne⟩ := mem_entries_forget.mp hkeys
  have hentry := h placeholder old ((NameMap.get?_eq_some_iff hnodup).mpr hold)
  exact ⟨hne, hentry.2.filter _⟩

theorem occupied_mention {mentions : NameMap (List String)} (h : Occupied mentions)
    (key entered : String) : Occupied (mention mentions key entered) := by
  intro placeholder keys hkeys
  rw [mention, NameMap.get?_insert] at hkeys
  split at hkeys
  · rw [Option.some.injEq] at hkeys
    have hmem : key ∈ keys := hkeys ▸ mem_insertNew.mpr (Or.inr rfl)
    refine ⟨List.ne_nil_of_mem hmem, hkeys ▸ nodup_insertNew ?_ key⟩
    cases hold : mentions.get? entered with
    | none => exact List.nodup_nil
    | some old => exact (h entered old hold).2
  · exact h placeholder keys hkeys

theorem occupied_mentions {mentions : NameMap (List String)} (h : Occupied mentions)
    (key : String) (entered : List String) :
    Occupied (entered.foldl (mention · key) mentions) := by
  induction entered generalizing mentions with
  | nil => exact h
  | cons placeholder rest ih => exact ih (occupied_mention h key placeholder)

/-- Stating properties and trees leaves no entry of the index empty. -/
theorem stable_occupied :
    Stable fun name d => Declaration.Indexed name d ∧ Occupied d.mentions where
  empty := fun name => ⟨indexed_empty name, fun _ _ h => by cases h⟩
  setProperty := fun _ _ key value line h =>
    ⟨h.1.setProperty key value line,
      occupied_mentions (occupied_forget h.1.entered h.2 key) key _⟩
  setHierarchy := fun _ _ tree _ h => ⟨h.1.setHierarchy tree, h.2⟩

/-- An exact index lists a property under what its text mentions. -/
theorem Indexed.lists_iff {name : String} {d : Declaration} (h : d.Indexed name)
    (placeholder key : String) :
    Lists d.mentions placeholder key ↔
      ∃ p, d.property? key = some p ∧ placeholder ∈ placeholders p.value := by
  rw [← dependsOn_iff]
  exact h.exact key placeholder

end Declaration

theorem Occupied.of_mem {mentions : NameMap (List String)} (h : Occupied mentions)
    (hnodup : mentions.keys.Nodup) {entry : String × List String}
    (hentry : entry ∈ mentions.entries) : entry.2 ≠ [] ∧ entry.2.Nodup :=
  h entry.1 entry.2 ((NameMap.get?_eq_some_iff hnodup).mpr hentry)

/-- **The index is the inverse of the properties.**  Whatever was parsed and stated, a property is
    listed under a placeholder exactly when it is set and its present text mentions the placeholder.
    Each placeholder has one entry at most, and no entry is empty or lists a property twice. -/
theorem Document.Reachable.mentions_inverse {doc : Document} (h : doc.Reachable) {name : String}
    {d : Declaration} (hd : doc.get? name = some d) :
    (∀ placeholder key, Lists d.mentions placeholder key ↔
      ∃ p, d.property? key = some p ∧ placeholder ∈ placeholders p.value) ∧
    d.mentions.keys.Nodup ∧
    ∀ entry ∈ d.mentions.entries, entry.2 ≠ [] ∧ entry.2.Nodup := by
  obtain ⟨hindexed, hoccupied⟩ := h.each Declaration.stable_occupied name d hd
  refine ⟨fun placeholder key => ?_, hindexed.entered, fun entry hentry => ?_⟩
  · exact hindexed.lists_iff placeholder key
  · exact hoccupied.of_mem hindexed.entered hentry

/-- A sheet that states a property anew, and then is malformed. -/
def rewordedSheet : String :=
  "A:\n  .x = #\x7bk\x7d #\x7bm\x7d\n  .y = #\x7bk\x7d\n  .z = #\x7bn\x7d\n" ++
    "A:\n  .x = #\x7bn\x7d\nB:\n  .x"

/-- A host states another property anew; then nothing mentions `k` and `m` any more. -/
theorem mentions_inverse_reworded :
    let parsed := parseInto (.empty "sheet") rewordedSheet
    let doc := (parsed.document.amend "A" (·.setProperty "y" "plain" 9)).2
    parsed.failure.isSome = true ∧
    ∃ d, doc.get? "A" = some d ∧ d.mentions = ⟨[("n", ["z", "x"])]⟩ ∧
      ∀ placeholder key, Lists d.mentions placeholder key ↔
        ∃ p, d.property? key = some p ∧ placeholder ∈ placeholders p.value := by
  intro parsed doc
  have hfailure : parsed.failure.isSome = true := by decide +kernel
  have hfound : (doc.get? "A").map (·.mentions) = some ⟨[("n", ["z", "x"])]⟩ := by decide +kernel
  obtain ⟨d, hd, hmentions⟩ := Option.map_eq_some_iff.mp hfound
  have hreachable : doc.Reachable := ((Document.Reachable.empty "sheet").parse _).setProperty ..
  exact ⟨hfailure, d, hd, hmentions, (hreachable.mentions_inverse hd).1⟩

end ViewSheet
