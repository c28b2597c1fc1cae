/-
  Occurrences: where the placeholders of a text stand, and that the scan comes to all of them.

  1. **Program**: the scan goes in rounds.  A round looks for the next place where a placeholder
     opens, and for the first brace behind that.  A closing brace gives a key, unless there is
     nothing in front of it; after an opening brace the next round starts behind the `#`; and if
     there is no brace, or no such place, the scan is over.

  2. **Specification**: `round?` is one round and `Scans` a run of rounds.  Every round uses up some
     of the text, so a run ends (`scans_placeholdersIn`).  `StandsAt` says that the placeholder of a
     key stands at some place of the text.

  3. **The crux** (`exists_standsAt`): when the scan comes to a key, it has come to all placeholders
     that stand further in front, since what a round passes over has a placeholder at its start or
     nowhere (`standsAt_open_iff`, `standsAt_closed_iff`).

  4. **Result** (`placeholders_exact`): the keys of a text are those whose placeholder stands in it,
     each once, in the order in which they first stand there.
-/
import ViewSheet.Proofs.Substitution

namespace ViewSheet

open Text

/-! ## Rounds of the scan -/

/-- One round: the key that it finds, if any, and the text that is left for the next round.  There
    is no further round where no placeholder opens, or no brace follows. -/
def round? (text : List Char) : Option (Option (List Char) × List Char) :=
  match cutAt? ['#', '\x7b'] text with
  | none => none
  | some (_, inner) => match inner.dropWhile (!isBrace ·) with
    | [] => none
    | c :: rest =>
      let key := inner.takeWhile (!isBrace ·)
      if c = '\x7d' then some (if key.isEmpty then none else some key, rest)
      else some (none, '\x7b' :: inner)

/-- So many rounds, until there is none, find these keys. -/
inductive Scans : List Char → Nat → List (List Char) → Prop where
  | ended {text : List Char} (last : round? text = none) : Scans text 0 []
  | next {text rest : List Char} {found : Option (List Char)} {rounds : Nat}
      {keys : List (List Char)} (first : round? text = some (found, rest))
      (later : Scans rest rounds keys) : Scans text (rounds + 1) (found.toList ++ keys)

theorem round?_open (cs : List Char) : round? ('#' :: '\x7b' :: cs) =
    match cs.dropWhile (!isBrace ·) with
    | [] => none
    | c :: rest =>
      if c = '\x7d' then
        some (if (cs.takeWhile (!isBrace ·)).isEmpty then none
          else some (cs.takeWhile (!isBrace ·)), rest)
      else some (none, '\x7b' :: cs) := rfl

/-- A character at which no placeholder opens is passed over. -/
theorem round?_cons {a : Char} {cs : List Char} (h : stripStart? ['#', '\x7b'] (a :: cs) = none) :
    round? (a :: cs) = round? cs := by
  rw [round?, cutAt?, h]
  dsimp only
  rw [round?]
  cases cutAt? ['#', '\x7b'] cs with
  | none => rfl
  | some cut => rfl

theorem Scans.cons {a : Char} {cs : List Char} (h : stripStart? ['#', '\x7b'] (a :: cs) = none)
    {rounds : Nat} {keys : List (List Char)} (hscan : Scans cs rounds keys) :
    Scans (a :: cs) rounds keys := by
  cases hscan with
  | ended last => exact .ended ((round?_cons h).trans last)
  | next first later => exact .next ((round?_cons h).trans first) later

/-- **The scan ends**, after no more rounds than the text has characters. -/
theorem scans_placeholdersIn (text : List Char) :
    ∃ rounds ≤ text.length, Scans text rounds (placeholdersIn text) := by
  induction text using placeholdersIn.induct with
  | case1 =>
    rw [placeholdersIn]
    exact ⟨0, Nat.zero_le _, .ended rfl⟩
  | case2 a =>
    have hshort : stripStart? ['#', '\x7b'] [a] = none := by
      rw [stripStart?]
      exact ite_self none
    rw [placeholdersIn]
    exact ⟨0, Nat.zero_le _, .ended (round?_cons hshort)⟩
  | case3 a b cs hstart hnone =>
    obtain ⟨rfl, rfl⟩ := hstart
    rw [placeholdersIn_open_nil hnone]
    exact ⟨0, Nat.zero_le _, .ended (by rw [round?_open, hnone])⟩
  | case4 a b cs hstart passed rest hempty hdrop hless ih =>
    obtain ⟨rfl, rfl⟩ := hstart
    obtain ⟨rounds, hrounds, hscan⟩ := ih
    rw [placeholdersIn_open hdrop, if_pos rfl, if_pos hempty]
    have hround : round? ('#' :: '\x7b' :: cs) = some (none, rest) := by
      rw [round?_open, hdrop]
      dsimp only
      rw [if_pos rfl, if_pos hempty]
    refine ⟨rounds + 1, ?_, .next hround hscan⟩
    simp only [List.length_cons] at *
    omega
  | case5 a b cs hstart passed rest hfull hdrop hless ih =>
    obtain ⟨rfl, rfl⟩ := hstart
    obtain ⟨rounds, hrounds, hscan⟩ := ih
    rw [placeholdersIn_open hdrop, if_pos rfl, if_neg hfull]
    have hround : round? ('#' :: '\x7b' :: cs) = some (some passed, rest) := by
      rw [round?_open, hdrop]
      dsimp only
      rw [if_pos rfl, if_neg hfull]
    refine ⟨rounds + 1, ?_, .next hround hscan⟩
    simp only [List.length_cons] at *
    omega
  | case6 a b cs hstart c rest hdrop hless hopen ih =>
    -- the round leaves the opening brace, which opens nothing without a `#` in front of it
    obtain ⟨rfl, rfl⟩ := hstart
    obtain ⟨rounds, hrounds, hscan⟩ := ih
    rw [placeholdersIn_open hdrop, if_neg hopen]
    have hround : round? ('#' :: '\x7b' :: cs) = some (none, '\x7b' :: cs) := by
      rw [round?_open, hdrop]
      dsimp only
      rw [if_neg hopen]
    refine ⟨rounds + 1, ?_, .next hround (.cons rfl hscan)⟩
    simp only [List.length_cons] at *
    omega
  | case7 a b cs hstart ih =>
    obtain ⟨rounds, hrounds, hscan⟩ := ih
    have hstrip : stripStart? ['#', '\x7b'] (a :: b :: cs) = none := by
      simp only [stripStart?]
      split
      · rename_i ha
        exact if_neg fun hb => hstart ⟨ha.symm, hb.symm⟩
      · rfl
    rw [placeholdersIn, if_neg hstart]
    exact ⟨rounds, Nat.le_succ_of_le hrounds, hscan.cons hstrip⟩

theorem isKey_iff {key : String} :
    IsKey key ↔ key ≠ "" ∧ '\x7b' ∉ key.toList ∧ '\x7d' ∉ key.toList := by
  refine and_congr_right fun _ => ⟨fun h => ⟨fun hmem => ?_, fun hmem => ?_⟩, ?_⟩
  · exact absurd (h _ hmem) (by decide)
  · exact absurd (h _ hmem) (by decide)
  · rintro ⟨hopen, hclose⟩ c hc
    rw [isBrace, Bool.or_eq_false_iff, beq_eq_false_iff_ne, beq_eq_false_iff_ne]
    exact ⟨fun h => hopen (h ▸ hc), fun h => hclose (h ▸ hc)⟩

/-! ## Places in a text -/

/-- The placeholder of a key stands at a place of a text. -/
def StandsAt (text : List Char) (key : String) (place : Nat) : Prop :=
  placeholderFor key <+: text.drop place

/-- The placeholder of one key stands in a text before that of another does. -/
def StandsBefore (text : List Char) (j k : String) : Prop :=
  ∃ place, StandsAt text j place ∧ ∀ other, StandsAt text k other → place < other

section
variable {key j k : String} {cs text : List Char} {place : Nat}

theorem StandsAt.unique (hj : IsKey j) (hk : IsKey k) (h : StandsAt text j place)
    (h' : StandsAt text k place) : j = k := by
  obtain ⟨rest, hrest⟩ := h'
  rw [StandsAt, ← hrest] at h
  exact eq_of_placeholderFor_starts hj hk h

/-- Where a text opens a placeholder, that one may stand, and others further on. -/
theorem standsAt_open_iff : StandsAt ('#' :: '\x7b' :: cs) key place ↔
    (place = 0 ∧ ∃ after, cs = key.toList ++ '\x7d' :: after) ∨
      ∃ inner, place = inner + 2 ∧ StandsAt cs key inner := by
  match place with
  | 0 =>
    rw [StandsAt, List.drop_zero, placeholderFor_eq, List.cons_prefix_cons, List.cons_prefix_cons]
    constructor
    · rintro ⟨-, -, after, rfl⟩
      exact Or.inl ⟨rfl, after, by rw [List.append_assoc]; rfl⟩
    · rintro (⟨-, after, rfl⟩ | ⟨inner, hinner, -⟩)
      · exact ⟨rfl, rfl, after, by rw [List.append_assoc]; rfl⟩
      · omega
  | 1 =>
    have hbrace : ¬ StandsAt ('#' :: '\x7b' :: cs) key 1 := by
      rw [StandsAt, List.drop_succ_cons, List.drop_zero, placeholderFor_eq, List.cons_prefix_cons]
      exact fun h => absurd h.1 (by decide)
    refine iff_of_false hbrace ?_
    rintro (⟨hplace, -⟩ | ⟨inner, hinner, -⟩) <;> omega
  | inner + 2 =>
    constructor
    · exact fun h => Or.inr ⟨inner, rfl, h⟩
    · rintro (⟨hplace, -⟩ | ⟨other, hother, h⟩)
      · omega
      · rwa [show inner = other by omega]

/-- No placeholder stands in a stretch without braces, nor at the closing brace behind it. -/
theorem standsAt_append_close_iff {passed : List Char} (hpassed : ∀ c ∈ passed, isBrace c = false)
    {rest : List Char} : StandsAt (passed ++ '\x7d' :: rest) key place ↔
      ∃ later, place = passed.length + 1 + later ∧ StandsAt rest key later := by
  constructor
  · intro h
    induction passed generalizing place with
    | nil =>
      cases place with
      | zero =>
        rw [StandsAt, List.drop_zero, placeholderFor_eq, List.nil_append, List.cons_prefix_cons]
          at h
        exact absurd h.1 (by decide)
      | succ place => exact ⟨place, Nat.add_comm place 1, h⟩
    | cons c passed ih =>
      have hmore : ∀ d ∈ passed, isBrace d = false := fun d hd => hpassed d (.tail c hd)
      cases place with
      | zero => exact absurd h (not_starts_plain hmore)
      | succ place =>
        obtain ⟨later, hplace, hlater⟩ := ih hmore h
        refine ⟨later, ?_, hlater⟩
        rw [List.length_cons]
        omega
  · rintro ⟨later, rfl, h⟩
    rwa [StandsAt, Nat.add_assoc, List.drop_append, List.drop_eq_nil_of_le (Nat.le_add_right _ _),
      Nat.add_sub_cancel_left, Nat.add_comm 1 later]

/-- Where a text opens a placeholder that is closed, that one stands, and others further on. -/
theorem standsAt_closed_iff (hkey : IsKey key) {passed : List Char}
    (hpassed : ∀ c ∈ passed, isBrace c = false) {rest : List Char} :
    StandsAt ('#' :: '\x7b' :: (passed ++ '\x7d' :: rest)) key place ↔
      (place = 0 ∧ passed = key.toList) ∨
        ∃ later, place = passed.length + 3 + later ∧ StandsAt rest key later := by
  rw [standsAt_open_iff]
  refine or_congr (and_congr_right fun _ => ⟨?_, ?_⟩) ⟨?_, ?_⟩
  · rintro ⟨after, hafter⟩
    exact (eq_of_append_brace hkey.2 hpassed rfl hafter).1
  · rintro rfl
    exact ⟨rest, rfl⟩
  · rintro ⟨inner, rfl, h⟩
    obtain ⟨later, rfl, hlater⟩ := (standsAt_append_close_iff hpassed).mp h
    exact ⟨later, by omega, hlater⟩
  · rintro ⟨later, rfl, h⟩
    exact ⟨passed.length + 1 + later, by omega,
      (standsAt_append_close_iff hpassed).mpr ⟨later, rfl, h⟩⟩

end

/-! ## The order of the keys -/

/-- **What is found first, stands first.**  When the scan comes to a key, the keys whose
    placeholders stand further in front have been found. -/
theorem exists_standsAt {text : List Char} {before after : List (List Char)} {key : String}
    (h : placeholdersIn text = before ++ key.toList :: after) :
    ∃ place, StandsAt text key place ∧
      ∀ k other, IsKey k → other < place → StandsAt text k other → k.toList ∈ before := by
  have hkey : IsKey key := by
    have hmem : key.toList ∈ placeholdersIn text := h ▸ List.mem_append_right _ List.mem_cons_self
    exact isKey_of_mem_placeholdersIn hmem
  induction text using placeholdersIn.induct generalizing before with
  | case1 =>
    rw [placeholdersIn] at h
    simp at h
  | case2 a =>
    rw [placeholdersIn] at h
    simp at h
  | case3 a b cs hstart hnone =>
    obtain ⟨rfl, rfl⟩ := hstart
    rw [placeholdersIn_open_nil hnone] at h
    simp at h
  | case4 a b cs hstart passed rest hempty hdrop _ =>
    rename_i ih
    obtain ⟨rfl, rfl⟩ := hstart
    obtain ⟨hcs, -, hplain⟩ := append_of_dropWhile hdrop
    rw [placeholdersIn_open hdrop, if_pos rfl, if_pos hempty] at h
    obtain ⟨place, hplace, hearlier⟩ := ih h
    rw [hcs]
    refine ⟨_, (standsAt_closed_iff hkey hplain).mpr (Or.inr ⟨place, rfl, hplace⟩), ?_⟩
    intro k other hk hother hstands
    rcases (standsAt_closed_iff hk hplain).mp hstands with ⟨-, hpassed⟩ | ⟨later, rfl, hlater⟩
    · -- empty braces are no placeholder
      have hnil : k.toList = [] := hpassed.symm.trans (List.isEmpty_iff.mp hempty)
      exact absurd (String.toList_eq_nil_iff.mp hnil) hk.1
    · exact hearlier k later hk (by omega) hlater
  | case5 a b cs hstart passed rest hfull hdrop _ =>
    rename_i ih
    obtain ⟨rfl, rfl⟩ := hstart
    obtain ⟨hcs, -, hplain⟩ := append_of_dropWhile hdrop
    rw [placeholdersIn_open hdrop, if_pos rfl, if_neg hfull] at h
    rw [hcs]
    cases before with
    | nil =>
      -- this is the key that the round finds
      obtain ⟨hfound, -⟩ := List.cons.inj h
      refine ⟨0, (standsAt_closed_iff hkey hplain).mpr (Or.inl ⟨rfl, hfound⟩), ?_⟩
      intro k other _ hother
      exact absurd hother (Nat.not_lt_zero other)
    | cons found before =>
      obtain ⟨rfl, hlater⟩ := List.cons.inj h
      obtain ⟨place, hplace, hearlier⟩ := ih hlater
      refine ⟨_, (standsAt_closed_iff hkey hplain).mpr (Or.inr ⟨place, rfl, hplace⟩), ?_⟩
      intro k other hk hother hstands
      rcases (standsAt_closed_iff hk hplain).mp hstands with ⟨-, hfound⟩ | ⟨later, rfl, hlater⟩
      · exact hfound ▸ List.mem_cons_self
      · exact List.mem_cons_of_mem _ (hearlier k later hk (by omega) hlater)
  | case6 a b cs hstart c rest hdrop _ hopen ih =>
    obtain ⟨rfl, rfl⟩ := hstart
    obtain ⟨hcs, hbrace, hplain⟩ := append_of_dropWhile hdrop
    rw [placeholdersIn_open hdrop, if_neg hopen] at h
    obtain ⟨place, hplace, hearlier⟩ := ih h
    refine ⟨place + 2, hplace, ?_⟩
    intro k other hk hother hstands
    rcases standsAt_open_iff.mp hstands with ⟨-, after, hafter⟩ | ⟨inner, rfl, hinner⟩
    · -- the first brace is an opening one
      exact absurd (eq_of_append_brace hk.2 hplain hbrace (hcs.symm.trans hafter)).2 hopen
    · exact hearlier k inner hk (by omega) hinner
  | case7 a b cs hstart ih =>
    rw [placeholdersIn, if_neg hstart] at h
    obtain ⟨place, hplace, hearlier⟩ := ih h
    refine ⟨place + 1, hplace, ?_⟩
    intro k other hk hother hstands
    cases other with
    | zero => exact absurd hstands (not_isPrefix_placeholderFor hstart)
    | succ other => exact hearlier k other hk (by omega) hstands

theorem placeholders_eq (text : String) : placeholders text =
    ((placeholdersIn text.toList).map String.ofList).foldl insertNew [] := by
  rw [placeholders, ← List.foldl_map (f := String.ofList) (g := insertNew)]

/-- The keys of a text come in the order in which their placeholders first stand in it. -/
theorem pairwise_placeholders (text : String) :
    (placeholders text).Pairwise (StandsBefore text.toList) := by
  have hdistinct := nodup_placeholders text
  have hfirst := pairwise_foldl_insertNew ((placeholdersIn text.toList).map String.ofList)
  rw [← placeholders_eq] at hfirst
  refine (hfirst.and hdistinct).imp_of_mem ?_
  rintro j k hj hk ⟨⟨before, after, hsplit, hnew⟩, hne⟩
  obtain ⟨earlier, later, hfound, rfl, hlater⟩ := List.map_eq_append_iff.mp hsplit
  obtain ⟨found, rest, rfl, rfl, -⟩ := List.map_eq_cons_iff.mp hlater
  rw [← String.toList_ofList (l := found)] at hfound
  obtain ⟨place, hplace, hearlier⟩ := exists_standsAt hfound
  refine ⟨place, hplace, fun other hother => ?_⟩
  have hkey := (mem_placeholders.mp hk).1
  rcases Nat.lt_trichotomy place other with hlt | rfl | hgt
  · exact hlt
  · exact absurd (hplace.unique (mem_placeholders.mp hj).1 hkey hother) hne
  · have hmem := hearlier k other hkey hgt hother
    exact absurd (List.mem_map.mpr ⟨_, hmem, String.ofList_toList⟩) hnew

/-- **The keys of a text are exactly those of its placeholders.**  A key is listed if and only if it
    is not empty, holds no brace, and stands in the text between `#` and braces.  It is listed once,
    and the keys come in the order in which they first stand there.  The scan that finds them ends
    after at most as many rounds as the text has characters. -/
theorem placeholders_exact (text : String) :
    (∀ key, key ∈ placeholders text ↔
      key ≠ "" ∧ '\x7b' ∉ key.toList ∧ '\x7d' ∉ key.toList ∧
        placeholderFor key <:+: text.toList) ∧
    (placeholders text).Nodup ∧
    (placeholders text).Pairwise (StandsBefore text.toList) ∧
    ∃ rounds found, rounds ≤ text.length ∧ Scans text.toList rounds found ∧
      placeholders text = (found.map String.ofList).foldl insertNew [] := by
  refine ⟨fun key => ?_, nodup_placeholders text, pairwise_placeholders text, ?_⟩
  · rw [mem_placeholders, isKey_iff, and_assoc, and_assoc]
  · obtain ⟨rounds, hrounds, hscan⟩ := scans_placeholdersIn text.toList
    exact ⟨rounds, _, String.length_toList (s := text) ▸ hrounds, hscan, placeholders_eq text⟩

end ViewSheet
