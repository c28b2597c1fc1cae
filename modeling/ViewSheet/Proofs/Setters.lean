/-
  Setters: a declaration that is written out as a list of settings.

  1. **Program**: `Assignment.readAll` reads a setter on a line that starts with a point, and goes
     on with its value on the lines below that do not.  The values are stored one after the other.

  2. **Specification**: a `Setting` is a key and the lines of its value.  `sourceOf` writes settings
     under a name, `Setting.value` is the text that is meant.

  3. **The crux** (`readAll_settings`): the lines of settings are read as their assignments, each
     with the number of its first line.  On the way, the last one is still open.

  4. **Result** (`parse_settings`).
-/
import ViewSheet.Proofs.Placeholders
import ViewSheet.Proofs.Writing

namespace ViewSheet

open Text Grammar

/-! ## Settings -/

/-- A key, the text behind its equals sign, and the lines that go on with the value. -/
structure Setting where
  key : List Char
  first : List Char
  more : List (List Char)

namespace Setting

/-- The line of the setter. -/
def setterLine (s : Setting) : List Char := "  .".toList ++ s.key ++ " = ".toList ++ s.first

/-- All lines of a setting. -/
def lines (s : Setting) : List (List Char) := s.setterLine :: s.more

/-- The value: its lines without the blanks around them, one below the other, without the blanks
    around the whole. -/
def value (s : Setting) : String :=
  String.ofList (trim (['\n'].intercalate ((s.first :: s.more).map trim)))

/-- What can be written as a setting, and not be taken for something else. -/
structure WellFormed (s : Setting) : Prop where
  full : s.key ≠ []
  letters : ∀ c ∈ s.key, isAlphanumeric c = true
  clean : ∀ line ∈ s.first :: s.more, Clean line
  further : ∀ line ∈ s.more, trim line ≠ [] ∧ (trim line).head? ≠ some '.'
  plain : ∀ line ∈ s.lines, ¬ Header (trim line)

end Setting

instance (s : Setting) : Decidable s.WellFormed :=
  decidable_of_iff (s.key ≠ [] ∧ s.key.all isAlphanumeric = true ∧
      (∀ line ∈ s.first :: s.more, Clean line) ∧
      (∀ line ∈ s.more, trim line ≠ [] ∧ (trim line).head? ≠ some '.') ∧
      ∀ line ∈ s.lines, ¬ Header (trim line))
    ⟨fun h => ⟨h.1, List.all_eq_true.mp h.2.1, h.2.2.1, h.2.2.2.1, h.2.2.2.2⟩,
      fun h => ⟨h.full, List.all_eq_true.mpr h.letters, h.clean, h.further, h.plain⟩⟩

/-- The lines of settings. -/
def settingLines (settings : List Setting) : List (List Char) := settings.flatMap (·.lines)

theorem settingLines_cons (s : Setting) (rest : List Setting) :
    settingLines (s :: rest) = s.lines ++ settingLines rest := List.flatMap_cons

/-- The source of one declaration with these settings. -/
def sourceOf (name : List Char) (settings : List Setting) : String :=
  String.ofList (written (headerLine name :: settingLines settings))

/-! ## What is read -/

namespace Setting

variable {s : Setting}

theorem setterLine_eq (s : Setting) :
    s.setterLine = [' ', ' '] ++ '.' :: ([] ++ (s.key ++ ([' '] ++ '=' :: ' ' :: s.first))) := by
  rw [setterLine, List.append_assoc, List.append_assoc]
  rfl

theorem WellFormed.isStatement_setterLine (h : s.WellFormed) : IsStatement s.setterLine := by
  have hpoint : '.' ∈ s.setterLine := by
    rw [setterLine_eq]
    simp
  refine ⟨?_, ?_, h.plain _ List.mem_cons_self⟩
  · refine Clean.append_front (fun c hc => ?_) (h.clean _ List.mem_cons_self)
    rw [List.append_assoc] at hc
    have hpoints : ∀ c ∈ "  .".toList, isBreak c = false ∧ c ≠ '#' := by simp [isBreak]
    have hequals : ∀ c ∈ " = ".toList, isBreak c = false ∧ c ≠ '#' := by simp [isBreak]
    rcases List.mem_append.mp hc with hc | hc
    · exact hpoints c hc
    rcases List.mem_append.mp hc with hc | hc
    · have hletter := h.letters c hc
      refine ⟨isBreak_eq_false ?_, ?_⟩
      · by_contra hblank
        rw [Bool.not_eq_false] at hblank
        rw [not_isAlphanumeric_of_isBlank hblank] at hletter
        cases hletter
      · rintro rfl
        exact absurd hletter (by decide)
    · exact hequals c hc
  · intro hnil
    exact absurd (trim_eq_nil.mp hnil '.' hpoint) (by decide)

theorem WellFormed.isStatement (h : s.WellFormed) : ∀ line ∈ s.lines, IsStatement line := by
  intro line hline
  rcases List.mem_cons.mp hline with rfl | hmore
  · exact h.isStatement_setterLine
  · exact ⟨h.clean line (List.mem_cons_of_mem _ hmore), (h.further line hmore).1,
      h.plain line hline⟩

/-- The assignment that a setting on a line is read as. -/
def assignment (s : Setting) (n : Nat) : Assignment :=
  ⟨String.ofList s.key, ['\n'].intercalate ((s.first :: s.more).map trim), n⟩

theorem blank_spaces (n : Nat) : Blank (List.replicate n ' ') := fun _ => isBlank_of_mem_spaces

theorem opens_setterLine (s : Setting) (n : Nat) :
    Assignment.opens ⟨n, trimEnd s.setterLine⟩ = true := by
  rw [opens_iff, setterLine_eq]
  exact ⟨[' ', ' '], _, trimEnd_append_cons rfl [' ', ' '] _, blank_spaces 2⟩

theorem WellFormed.read_setterLine (h : s.WellFormed) (n : Nat) :
    Assignment.read ⟨n, trimEnd s.setterLine⟩ = .ok ⟨String.ofList s.key, trim s.first, n⟩ := by
  have hend : trimEnd s.setterLine =
      [' ', ' '] ++ '.' :: ([] ++ (s.key ++ ([' '] ++ '=' :: trimEnd (' ' :: s.first)))) := by
    have hequals : isBlank '=' = false := by decide
    have h := trimEnd_append_cons hequals ([' ', ' '] ++ '.' :: ([] ++ (s.key ++ [' '])))
      (' ' :: s.first)
    simp only [List.append_assoc, List.cons_append, List.nil_append] at h
    rw [setterLine_eq]
    exact h
  have hvalue : trim (trimEnd (' ' :: s.first)) = trim s.first := by
    rw [trim_trimEnd, trim, trim]
    rfl
  rw [hend, ← hvalue]
  exact read_setter (blank_spaces 2) (blank_spaces 0) (blank_spaces 1) h.full h.letters _ n

end Setting

theorem isStatement_settingLines {settings : List Setting} (h : ∀ s ∈ settings, s.WellFormed) :
    ∀ line ∈ settingLines settings, IsStatement line := by
  intro line hline
  obtain ⟨s, hs, hline⟩ := List.mem_flatMap.mp hline
  exact (h s hs).isStatement line hline

/-- The line of a setter is behind the header and the settings above it. -/
theorem getElem?_splitLines_sourceOf {name : List Char} (hname : IsName name)
    {before : List Setting} {s : Setting} {after : List Setting}
    (h : ∀ t ∈ before ++ s :: after, t.WellFormed) :
    (splitLines (sourceOf name (before ++ s :: after)).toList)[(settingLines before).length + 1]? =
      some s.setterLine := by
  have hunbroken : ∀ line ∈ headerLine name :: settingLines (before ++ s :: after),
      ∀ c ∈ line, isBreak c = false := by
    intro line hline
    rcases List.mem_cons.mp hline with rfl | hline
    · exact (clean_headerLine hname).unbroken
    · exact (isStatement_settingLines h line hline).clean.unbroken
  have hlines : settingLines (before ++ s :: after) =
      settingLines before ++ s.setterLine :: (s.more ++ settingLines after) := by
    rw [settingLines, List.flatMap_append, ← settingLines, ← settingLines, settingLines_cons,
      Setting.lines, List.cons_append]
  rw [sourceOf, String.toList_ofList, splitLines_written hunbroken, List.cons_append,
    List.getElem?_cons_succ, hlines, List.append_assoc,
    List.getElem?_append_right (Nat.le_refl _), Nat.sub_self, List.cons_append,
    List.getElem?_cons_zero]

/-- Text that is put together with a separator is the first, and the others each behind one. -/
theorem intercalate_cons (sep : Char) (first : List Char) (rest : List (List Char)) :
    [sep].intercalate (first :: rest) = first ++ rest.flatMap (sep :: ·) := by
  induction rest generalizing first with
  | nil => simp
  | cons next rest ih =>
    rw [List.intercalate_cons_cons, ih, List.flatMap_cons, List.append_assoc]
    rfl

/-- A setter closes the one above it. -/
theorem Assignment.readAll_cons {l : Line} (hopens : opens l = true) {a : Assignment}
    (hread : read l = .ok a) (pending : Option Assignment) (below : List Line) :
    readAll pending (l :: below) = (readAll (some a) below).map (pending.toList ++ ·) := by
  cases pending <;> rw [readAll, if_pos hopens, hread]

/-- Lines without a point go on with the value above them. -/
theorem Assignment.readAll_further {more : List (List Char)}
    (h : ∀ line ∈ more, (trim line).head? ≠ some '.') (a : Assignment) (n : Nat)
    (below : List Line) :
    readAll (some a) (numbered n (more.map trimEnd) ++ below) =
      readAll (some { a with value := a.value ++ (more.map trim).flatMap ('\n' :: ·) }) below := by
  induction more generalizing a n with
  | nil => rw [List.map_nil, List.map_nil, List.flatMap_nil, List.append_nil]; rfl
  | cons line more ih =>
    have hopens : opens ⟨n, trimEnd line⟩ = false := by
      rw [opens]
      dsimp only
      rw [← trim_eq]
      simpa using h line List.mem_cons_self
    rw [List.map_cons, numbered, List.cons_append, readAll, if_neg (by rw [hopens]; decide)]
    rw [ih fun l hl => h l (List.mem_cons_of_mem line hl), continueWith]
    dsimp only
    rw [trim_trimEnd, List.map_cons, List.flatMap_cons, List.append_assoc]

/-- The assignments of settings whose lines are numbered from `n` on. -/
def assignments : Nat → List Setting → List Assignment
  | _, [] => []
  | n, s :: rest => s.assignment n :: assignments (n + s.lines.length) rest

/-- **Settings are read as their assignments.** -/
theorem readAll_settings {settings : List Setting} (h : ∀ s ∈ settings, s.WellFormed)
    (pending : Option Assignment) (n : Nat) :
    Assignment.readAll pending (numbered n ((settingLines settings).map trimEnd)) =
      .ok (pending.toList ++ assignments n settings) := by
  -- what the settings above have left open comes first
  induction settings generalizing pending n with
  | nil =>
    rw [assignments, List.append_nil]
    rfl
  | cons s rest ih =>
    have hs := h s List.mem_cons_self
    have hlines : numbered n ((settingLines (s :: rest)).map trimEnd) =
        ⟨n, trimEnd s.setterLine⟩ :: (numbered (n + 1) (s.more.map trimEnd) ++
          numbered (n + s.lines.length) ((settingLines rest).map trimEnd)) := by
      rw [settingLines_cons, Setting.lines, List.cons_append, List.map_cons, numbered,
        List.map_append, numbered_append, List.length_map, List.length_cons, Nat.add_assoc n 1,
        Nat.add_comm 1]
    have hassignment : (⟨String.ofList s.key,
        trim s.first ++ (s.more.map trim).flatMap ('\n' :: ·), n⟩ : Assignment) =
          s.assignment n := by
      rw [Setting.assignment, List.map_cons, intercalate_cons]
    rw [hlines, Assignment.readAll_cons (s.opens_setterLine n) (hs.read_setterLine n),
      Assignment.readAll_further fun line hline => (hs.further line hline).2]
    dsimp only
    rw [hassignment, ih fun t ht => h t (List.mem_cons_of_mem s ht), assignments]
    rfl

theorem Body.read_settings {settings : List Setting} (hfull : settings ≠ [])
    (h : ∀ s ∈ settings, s.WellFormed) (n : Nat) :
    (Body.read (numbered n ((settingLines settings).map trimEnd))).2 =
      .ok (.setters (assignments n settings)) := by
  obtain ⟨s, rest, rfl⟩ := List.exists_cons_of_ne_nil hfull
  have hall := readAll_settings h none n
  rw [settingLines_cons, Setting.lines, List.cons_append, List.map_cons, numbered] at hall ⊢
  rw [Body.read_cons, if_pos (s.opens_setterLine n), hall]
  rfl

/-! ## What is stored -/

theorem assignments_append (n : Nat) (front back : List Setting) :
    assignments n (front ++ back) =
      assignments n front ++ assignments (n + (settingLines front).length) back := by
  induction front generalizing n with
  | nil => rfl
  | cons s front ih =>
    rw [List.cons_append, assignments, ih, assignments, List.cons_append, settingLines_cons,
      List.length_append, Nat.add_assoc]

theorem map_key_assignments (n : Nat) (settings : List Setting) :
    (assignments n settings).map (·.key) = settings.map fun s => String.ofList s.key := by
  induction settings generalizing n with
  | nil => rfl
  | cons s rest ih => rw [assignments, List.map_cons, ih, List.map_cons, Setting.assignment]

namespace Assignment

/-- Keys stand in the order in which they were first stored. -/
theorem keys_applyAll (d : Declaration) (all : List Assignment) :
    (applyAll d all).2.properties.keys = (all.map (·.key)).foldl insertNew d.properties.keys := by
  induction all generalizing d with
  | nil => rfl
  | cons a rest ih =>
    have hkeys : (a.apply d).2.properties.keys = insertNew d.properties.keys a.key :=
      NameMap.keys_insert d.properties a.key _
    show (applyAll (a.apply d).2 rest).2.properties.keys = _
    rw [ih, hkeys, List.map_cons, List.foldl_cons]

theorem property?_applyAll_of_ne (d : Declaration) {all : List Assignment} {key : String}
    (h : ∀ a ∈ all, a.key ≠ key) : (applyAll d all).2.property? key = d.property? key := by
  induction all generalizing d with
  | nil => rfl
  | cons a rest ih =>
    show (applyAll (a.apply d).2 rest).2.property? key = _
    rw [ih _ fun b hb => h b (List.mem_cons_of_mem a hb)]
    exact Declaration.property?_setProperty_of_ne d _ _ (h a List.mem_cons_self).symm

/-- The last text stored under a key is the one that counts. -/
theorem property?_applyAll (d : Declaration) (before : List Assignment) (a : Assignment)
    {after : List Assignment} (h : ∀ b ∈ after, b.key ≠ a.key) :
    (applyAll d (before ++ a :: after)).2.property? a.key =
      some ⟨String.ofList (trim a.value), a.line⟩ := by
  induction before generalizing d with
  | nil =>
    show (applyAll (a.apply d).2 after).2.property? a.key = _
    rw [property?_applyAll_of_ne _ h]
    exact Declaration.property?_setProperty_self d _ _ _
  | cons b before ih => exact ih (b.apply d).2

end Assignment

/-- The last setting for a key is the one that counts. -/
theorem property?_applyAll_assignments (d : Declaration) (n : Nat) (before : List Setting)
    (s : Setting) {after : List Setting} (h : ∀ t ∈ after, t.key ≠ s.key) :
    (Assignment.applyAll d (assignments n (before ++ s :: after))).2.property?
        (String.ofList s.key) =
      some ⟨s.value, n + (settingLines before).length⟩ := by
  have hother : ∀ m, ∀ b ∈ assignments m after, b.key ≠ String.ofList s.key := by
    intro m b hb hkey
    have hkeys := List.mem_map_of_mem (f := (·.key)) hb
    rw [map_key_assignments, List.mem_map] at hkeys
    obtain ⟨t, ht, heq⟩ := hkeys
    exact h t ht (String.ofList_injective (heq.trans hkey))
  rw [assignments_append, assignments]
  exact Assignment.property?_applyAll _ _ (s.assignment _) (hother _)

/-- **A body of setters is stored faithfully.**  What settings write under a name is accepted, and
    the document has this declaration alone.  Its keys stand in the order in which they first come.
    A key has the value of the last setting for it, and the number of the line on which that one
    starts, the header being line 1.  The index lists a key under a placeholder exactly when the
    placeholder stands in the key's value.  It has one entry at most for each placeholder, and none
    that is empty or lists a key twice. -/
theorem parse_settings {name : List Char} (hname : IsName name) {settings : List Setting}
    (hfull : settings ≠ []) (hsettings : ∀ s ∈ settings, s.WellFormed) (identifier : String) :
    ∃ d, (parse (sourceOf name settings) identifier).2 =
        .ok ⟨identifier, ⟨[(String.ofList name, d)]⟩⟩ ∧
      d.properties.keys = (settings.map fun s => String.ofList s.key).eraseDups ∧
      (∀ before s after, settings = before ++ s :: after → (∀ t ∈ after, t.key ≠ s.key) →
        d.property? (String.ofList s.key) = some ⟨s.value, (settingLines before).length + 2⟩ ∧
        (splitLines (sourceOf name settings).toList)[(settingLines before).length + 1]? =
          some s.setterLine) ∧
      (∀ placeholder key, Lists d.mentions placeholder key ↔ IsKey placeholder ∧
        ∃ p, d.property? key = some p ∧ placeholderFor placeholder <:+: p.value.toList) ∧
      d.mentions.keys.Nodup ∧ ∀ entry ∈ d.mentions.entries, entry.2 ≠ [] ∧ entry.2.Nodup := by
  have hlines := isStatement_settingLines hsettings
  have hfull' : settingLines settings ≠ [] := by
    obtain ⟨s, rest, rfl⟩ := List.exists_cons_of_ne_nil hfull
    exact List.cons_ne_nil s.setterLine _
  have hparse := parse_written hname hlines hfull' (Body.read_settings hfull hsettings 2) identifier
  have htree : ∀ tree, Body.setters (assignments 2 settings) = .hierarchy tree →
      tree.WellFormed := by
    intro tree htree
    cases htree
  obtain ⟨hindexed, hoccupied⟩ := Body.stable_apply Declaration.stable_occupied
    (Declaration.stable_occupied.empty (String.ofList name)) htree
  refine ⟨_, hparse, ?_, fun before t after hsplit hlast => ?_, fun placeholder key => ?_,
    hindexed.entered, fun entry hentry => hoccupied.of_mem hindexed.entered hentry⟩
  · rw [Body.apply, Assignment.keys_applyAll, map_key_assignments]
    exact foldl_insertNew_nil _
  · rw [hsplit] at hsettings ⊢
    refine ⟨?_, getElem?_splitLines_sourceOf hname hsettings⟩
    rw [Body.apply, Nat.add_comm]
    exact property?_applyAll_assignments _ 2 before t hlast
  · rw [hindexed.lists_iff]
    constructor
    · rintro ⟨p, hp, hmem⟩
      obtain ⟨hkey, hstands⟩ := mem_placeholders.mp hmem
      exact ⟨hkey, p, hp, hstands⟩
    · rintro ⟨hkey, p, hp, hstands⟩
      exact ⟨p, hp, mem_placeholders.mpr ⟨hkey, hstands⟩⟩

/-- Settings that state a key anew, go on over lines, and mention placeholders. -/
def greetingSettings : List Setting := [
  ⟨"title".toList, "Hi #\x7bname\x7d".toList, [" of #\x7bplace\x7d, ".toList, "\tdear:)".toList]⟩,
  ⟨"größe2".toList, " ".toList, ["\u20031 = .5 #- ".toList]⟩,
  ⟨"title".toList, " Bye #\x7b#\x7bname\x7d\x7d ".toList, [" \u00e0 #\x7b\x7d".toList]⟩]

theorem parse_settings_greeting :
    sourceOf "A.b:".toList greetingSettings =
      "A.b::\n  .title = Hi #\x7bname\x7d\n of #\x7bplace\x7d, \n\tdear:)\n" ++
        "  .größe2 =  \n\u20031 = .5 #- \n" ++
        "  .title =  Bye #\x7b#\x7bname\x7d\x7d \n \u00e0 #\x7b\x7d\n" ∧
    ∃ d, (parse (sourceOf "A.b:".toList greetingSettings) "sheet").2 =
        .ok ⟨"sheet", ⟨[("A.b:", d)]⟩⟩ ∧
      d.properties.keys = ["title", "größe2"] ∧
      d.property? "title" = some ⟨"Bye #\x7b#\x7bname\x7d\x7d\n\u00e0 #\x7b\x7d", 7⟩ ∧
      d.property? "größe2" = some ⟨"1 = .5 #-", 5⟩ ∧
      Lists d.mentions "name" "title" ∧ ¬ Lists d.mentions "place" "title" := by
  have hname : IsName "A.b:".toList := by decide
  have hsettings : ∀ s ∈ greetingSettings, s.WellFormed := by decide +kernel
  obtain ⟨d, hparse, hkeys, hvalues, hlists, -⟩ :=
    parse_settings hname (List.cons_ne_nil _ _) hsettings "sheet"
  have htitle : d.property? "title" =
      some ⟨"Bye #\x7b#\x7bname\x7d\x7d\n\u00e0 #\x7b\x7d", 7⟩ :=
    (hvalues (greetingSettings.take 2) _ [] rfl (by decide)).1.trans (by decide +kernel)
  have hsize : d.property? "größe2" = some ⟨"1 = .5 #-", 5⟩ :=
    (hvalues (greetingSettings.take 1) _ (greetingSettings.drop 2) rfl (by decide)).1.trans
      (by decide +kernel)
  refine ⟨by decide +kernel, d, hparse, hkeys.trans (by decide +kernel), htitle, hsize, ?_, ?_⟩
  · have hkey : IsKey "name" := ⟨by decide, by simp [isBrace]⟩
    exact (hlists "name" "title").mpr ⟨hkey, _, htitle, by decide +kernel⟩
  · intro hplace
    obtain ⟨-, p, hp, hstands⟩ := (hlists "place" "title").mp hplace
    rw [htitle, Option.some.injEq] at hp
    rw [← hp] at hstands
    exact absurd hstands (by decide +kernel)

end ViewSheet
