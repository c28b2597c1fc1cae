/-
  Substitution: what filling in a text has to do with putting all bound texts in at once.

  1. **Program**: `fillKeys` takes one key after the other and exchanges its placeholder in all of
     the text that it has by then, the texts put in before included.

  2. **Specification**: a text is read once, into characters and holes (`parts`).  `substitute` puts
     the bound text into each hole, and looks at nothing that it has put in.

  3. **The crux**: one turn of the program is a substitution for one key (`replaceAll_eq`), in the
     text as it then is.  That text has every hole of the key that is still open, and it may have
     more (`parts_append_hole`, `count_le_parts`).  If it has no more, the turn does for the whole
     what it does for each part (`substituteWith_filled`).

  4. **Result** (`filled?_eq_substitute`): where the texts put in complete no placeholder of another
     key in the text (`Settled`), filling in is substitution, in whatever order the keys are taken.
     Texts without an opening brace complete none (`settled_of_plain`), nor is there another key
     when only one is bound (`settled_of_single`).  Without the condition the order shows
     (`fill_not_substitute`).
-/
import ViewSheet.Proofs.Placeholders

namespace ViewSheet

open Text

/-! ## Reading a text -/

/-- The key of the placeholder that a text starts with, and what follows the placeholder. -/
def hole? (cs : List Char) : Option (String × List Char) :=
  (stripStart? ['#', '\x7b'] cs).bind fun inner =>
    match inner.dropWhile (!isBrace ·) with
    | [] => none
    | c :: rest =>
      let key := inner.takeWhile (!isBrace ·)
      if c = '\x7d' ∧ key ≠ [] then some (String.ofList key, rest) else none

/-- What a text starts with is a hole exactly when it starts with the placeholder of a key. -/
theorem hole?_eq_some_iff {cs rest : List Char} {key : String} :
    hole? cs = some (key, rest) ↔ IsKey key ∧ cs = placeholderFor key ++ rest := by
  constructor
  · intro h
    obtain ⟨inner, hinner, hfound⟩ := Option.bind_eq_some_iff.mp h
    split at hfound
    · cases hfound
    · rename_i c after hdrop
      dsimp only at hfound
      split at hfound
      · rename_i hclose
        obtain ⟨hcs, -, hplain⟩ := append_of_dropWhile hdrop
        obtain ⟨hkey, rfl⟩ := Prod.mk.inj (Option.some.inj hfound)
        subst hkey
        refine ⟨⟨fun hnil => hclose.2 (String.ofList_eq_empty_iff.mp hnil), ?_⟩, ?_⟩
        · rw [String.toList_ofList]
          exact hplain
        · rw [eq_append_of_stripStart? hinner, placeholderFor, String.toList_ofList,
            List.append_assoc, List.append_assoc]
          rw [hclose.1] at hcs
          exact congrArg _ hcs
      · cases hfound
  · rintro ⟨hkey, rfl⟩
    have hopen : ∀ c ∈ key.toList, (!isBrace c) = true := fun c hc => by rw [hkey.2 c hc]; rfl
    have hfull : key.toList ≠ [] := fun h => hkey.1 (String.toList_inj.mp h)
    have hinner : stripStart? ['#', '\x7b'] (placeholderFor key ++ rest) =
        some (key.toList ++ '\x7d' :: rest) := by
      rw [placeholderFor, List.append_assoc, List.append_assoc]
      exact stripStart?_append _ _
    have hdrop : (key.toList ++ '\x7d' :: rest).dropWhile (!isBrace ·) = '\x7d' :: rest := by
      rw [List.dropWhile_append_of_pos hopen]
      rfl
    have htake : (key.toList ++ '\x7d' :: rest).takeWhile (!isBrace ·) = key.toList := by
      rw [List.takeWhile_append_of_pos hopen, List.takeWhile_cons_of_neg (by decide),
        List.append_nil]
    rw [hole?, hinner, Option.bind_some, hdrop, htake]
    dsimp only
    rw [if_pos ⟨rfl, hfull⟩, String.ofList_toList]

theorem length_lt_of_hole? {cs rest : List Char} {key : String} (h : hole? cs = some (key, rest)) :
    rest.length < cs.length := by
  rw [(hole?_eq_some_iff.mp h).2, placeholderFor_eq]
  simp only [List.cons_append, List.length_cons, List.length_append]
  omega

/-- A character of a text as written, or the placeholder of a key. -/
inductive Part where
  | plain (c : Char)
  | hole (key : String)
deriving DecidableEq, Repr

/-- A text as its parts, from left to right. -/
def parts : List Char → List Part
  | [] => []
  | c :: cs =>
    match h : hole? (c :: cs) with
    | some (key, rest) =>
      have := length_lt_of_hole? h
      .hole key :: parts rest
    | none => .plain c :: parts cs
termination_by cs => cs.length
decreasing_by all_goals simp only [List.length_cons] at *; omega

theorem parts_hole {key : String} (hkey : IsKey key) (rest : List Char) :
    parts (placeholderFor key ++ rest) = .hole key :: parts rest := by
  have hhole : hole? (placeholderFor key ++ rest) = some (key, rest) :=
    hole?_eq_some_iff.mpr ⟨hkey, rfl⟩
  rw [placeholderFor_eq, List.cons_append, parts]
  rw [placeholderFor_eq, List.cons_append] at hhole
  split
  · rename_i heq
    rw [hhole] at heq
    obtain ⟨rfl, rfl⟩ := Prod.mk.inj (Option.some.inj heq)
    rfl
  · rename_i heq
    rw [hhole] at heq
    cases heq

theorem parts_plain {c : Char} {cs : List Char} (h : hole? (c :: cs) = none) :
    parts (c :: cs) = .plain c :: parts cs := by
  rw [parts]
  split
  · rename_i heq
    rw [h] at heq
    cases heq
  · rfl

/-- A text is empty, starts with a placeholder, or starts with a character that opens none. -/
theorem parts_induction {motive : List Char → Prop} (nil : motive [])
    (hole : ∀ key rest, IsKey key → motive rest → motive (placeholderFor key ++ rest))
    (plain : ∀ c cs, hole? (c :: cs) = none → motive cs → motive (c :: cs)) (cs : List Char) :
    motive cs := by
  induction cs using parts.induct with
  | case1 => exact nil
  | case2 c cs key rest h _ ih =>
    obtain ⟨hkey, heq⟩ := hole?_eq_some_iff.mp h
    rw [heq]
    exact hole key rest hkey ih
  | case3 c cs h ih => exact plain c cs h ih

theorem isKey_of_mem_parts {key : String} (cs : List Char) (h : .hole key ∈ parts cs) :
    IsKey key := by
  induction cs using parts_induction with
  | nil =>
    rw [parts] at h
    exact absurd h List.not_mem_nil
  | hole other rest hother ih =>
    rw [parts_hole hother, List.mem_cons] at h
    rcases h with heq | h
    · exact (Part.hole.inj heq) ▸ hother
    · exact ih h
  | plain c cs hnone ih =>
    rw [parts_plain hnone, List.mem_cons] at h
    rcases h with heq | h
    · cases heq
    · exact ih h

/-! ## Putting texts in -/

/-- A part with a text in place of the hole, if there is one for its key. -/
def Part.fill (bound : String → Option String) : Part → List Char
  | plain c => [c]
  | hole key => match bound key with
    | some text => text.toList
    | none => placeholderFor key

/-- The parts with their holes filled, as a text. -/
def filledParts (bound : String → Option String) (ps : List Part) : List Char :=
  ps.flatMap (Part.fill bound)

/-- The text with its holes filled, all at once. -/
def substituteWith (bound : String → Option String) (cs : List Char) : List Char :=
  filledParts bound (parts cs)

/-- **The text that a reader of the sheet expects**: every placeholder of a bound key exchanged for
    the bound text, and all else as written. -/
def substitute (data : DataBindings) (text : String) : String :=
  String.ofList (substituteWith data.get? text.toList)

variable {bound other : String → Option String} {key text : String}

theorem filledParts_cons (p : Part) (ps : List Part) :
    filledParts bound (p :: ps) = p.fill bound ++ filledParts bound ps := rfl

theorem fill_hole_none (h : bound key = none) :
    (Part.hole key).fill bound = placeholderFor key := by
  rw [Part.fill, h]

theorem fill_hole_some (h : bound key = some text) : (Part.hole key).fill bound = text.toList := by
  rw [Part.fill, h]

theorem filledParts_congr {ps : List Part}
    (h : ∀ key, .hole key ∈ ps → bound key = other key) :
    filledParts bound ps = filledParts other ps := by
  induction ps with
  | nil => rfl
  | cons p ps ih =>
    have hpart : p.fill bound = p.fill other := by
      cases p with
      | plain c => rfl
      | hole key => rw [Part.fill, Part.fill, h key List.mem_cons_self]
    rw [filledParts_cons, filledParts_cons, hpart, ih fun key hkey => h key (.tail p hkey)]

/-- With nothing put in, the parts make up the text. -/
theorem filledParts_none (cs : List Char) : filledParts (fun _ => none) (parts cs) = cs := by
  induction cs using parts_induction with
  | nil =>
    rw [parts]
    rfl
  | hole key rest hkey ih =>
    rw [parts_hole hkey, filledParts_cons, fill_hole_none rfl, ih]
  | plain c cs hnone ih =>
    rw [parts_plain hnone, filledParts_cons, ih]
    rfl

/-- A text whose holes get nothing stays as it is. -/
theorem substituteWith_of_none {cs : List Char}
    (h : ∀ key, .hole key ∈ parts cs → bound key = none) : substituteWith bound cs = cs := by
  calc filledParts bound (parts cs)
      = filledParts (fun _ => none) (parts cs) := filledParts_congr h
    _ = cs := filledParts_none cs

/-- The holes of a text are the keys that it mentions. -/
theorem mem_placeholders_of_hole (h : .hole key ∈ parts text.toList) : key ∈ placeholders text := by
  refine mem_placeholders.mpr ⟨isKey_of_mem_parts _ h, ?_⟩
  obtain ⟨before, after, hsplit⟩ := List.append_of_mem h
  refine ⟨filledParts (fun _ => none) before, filledParts (fun _ => none) after, ?_⟩
  have hwhole := filledParts_none text.toList
  rw [hsplit, filledParts, List.flatMap_append, List.flatMap_cons] at hwhole
  rw [← hwhole, List.append_assoc]
  rfl

/-! ## One turn of the program -/

/-- The binding of a single key. -/
def only (key text : String) : String → Option String :=
  fun k => if k = key then some text else none

theorem only_self (key text : String) : only key text key = some text := if_pos rfl

theorem only_of_ne {k : String} (h : k ≠ key) : only key text k = none := if_neg h

section Turn

variable {old new cs rest : List Char}

theorem replaceAll_cons_of_not_starts {c : Char} (h : ¬ old <+: c :: cs) :
    replaceAll old new (c :: cs) = c :: replaceAll old new cs := by
  rw [replaceAll, replaceFrom, if_neg fun hp => h (List.isPrefixOf_iff_prefix.mp hp), replaceAll]

theorem replaceFrom_length_append (skipped rest : List Char) :
    replaceFrom old new skipped.length (skipped ++ rest) = replaceAll old new rest := by
  induction skipped with
  | nil => rfl
  | cons c skipped ih => exact ih

theorem replaceAll_append_self (h : old ≠ []) :
    replaceAll old new (old ++ rest) = new ++ replaceAll old new rest := by
  cases old with
  | nil => exact absurd rfl h
  | cons c old =>
    have hprefix : (c :: old).isPrefixOf (c :: (old ++ rest)) = true :=
      List.isPrefixOf_iff_prefix.mpr ⟨rest, rfl⟩
    rw [List.cons_append, replaceAll, replaceFrom, if_pos hprefix]
    exact congrArg (new ++ ·) (replaceFrom_length_append old rest)

/-- A stretch without braces and the closing brace behind it stay as they are. -/
theorem replaceAll_append_close {passed : List Char} (hpassed : ∀ c ∈ passed, isBrace c = false) :
    replaceAll (placeholderFor key) new (passed ++ '\x7d' :: rest) =
      passed ++ '\x7d' :: replaceAll (placeholderFor key) new rest := by
  induction passed with
  | nil =>
    refine replaceAll_cons_of_not_starts fun h => ?_
    rw [placeholderFor_eq, List.cons_prefix_cons] at h
    exact absurd h.1 (by decide)
  | cons c passed ih =>
    have hrest : ∀ d ∈ passed, isBrace d = false :=
      fun d hd => hpassed d (List.mem_cons_of_mem c hd)
    rw [List.cons_append, replaceAll_cons_of_not_starts (not_starts_plain hrest), ih hrest,
      List.cons_append]

end Turn

theorem eq_of_placeholderFor_starts {k : String} {rest : List Char} (hkey : IsKey key)
    (hk : IsKey k) (h : placeholderFor key <+: placeholderFor k ++ rest) : key = k := by
  obtain ⟨after, hafter⟩ := h
  simp only [placeholderFor_eq, List.cons_append, List.append_assoc, List.nil_append,
    List.cons.injEq, true_and] at hafter
  exact String.toList_inj.mp (eq_of_append_brace hk.2 hkey.2 rfl hafter).1

/-- The placeholder of another key stays as it is. -/
theorem replaceAll_append_hole {k : String} {new : List Char} (hkey : IsKey key) (hk : IsKey k)
    (hne : key ≠ k) (rest : List Char) :
    replaceAll (placeholderFor key) new (placeholderFor k ++ rest) =
      placeholderFor k ++ replaceAll (placeholderFor key) new rest := by
  have hfirst : ¬ placeholderFor key <+: placeholderFor k ++ rest :=
    fun h => hne (eq_of_placeholderFor_starts hkey hk h)
  rw [placeholderFor_eq k] at hfirst ⊢
  simp only [List.cons_append, List.append_assoc, List.nil_append] at hfirst ⊢
  have hsecond : ¬ placeholderFor key <+: '\x7b' :: (k.toList ++ '\x7d' :: rest) := by
    rw [placeholderFor_eq, List.cons_prefix_cons]
    exact fun h => absurd h.1 (by decide)
  rw [replaceAll_cons_of_not_starts hfirst, replaceAll_cons_of_not_starts hsecond,
    replaceAll_append_close hk.2]

/-- **A turn is a substitution for one key**, in whatever text it meets. -/
theorem replaceAll_eq (hkey : IsKey key) (cs : List Char) :
    replaceAll (placeholderFor key) text.toList cs = substituteWith (only key text) cs := by
  rw [substituteWith]
  induction cs using parts_induction with
  | nil =>
    rw [parts]
    rfl
  | hole k rest hk ih =>
    rw [parts_hole hk, filledParts_cons, ← ih]
    by_cases hsame : key = k
    · subst hsame
      rw [fill_hole_some (only_self key text), replaceAll_append_self]
      exact List.cons_ne_nil _ _
    · rw [fill_hole_none (only_of_ne fun h => hsame h.symm), replaceAll_append_hole hkey hk hsame]
  | plain c cs hnone ih =>
    have hstart : ¬ placeholderFor key <+: c :: cs := by
      rintro ⟨rest, hrest⟩
      rw [hole?_eq_some_iff.mpr ⟨hkey, hrest.symm⟩] at hnone
      cases hnone
    rw [parts_plain hnone, filledParts_cons, ← ih, replaceAll_cons_of_not_starts hstart]
    rfl

/-! ## The holes of a text that is filled in part -/

/-- No placeholder reaches from a text into one behind it. -/
theorem hole?_append_placeholder {c : Char} {cs : List Char} (h : hole? (c :: cs) = none)
    (key : String) (rest : List Char) : hole? (c :: cs ++ (placeholderFor key ++ rest)) = none := by
  rw [Option.eq_none_iff_forall_ne_some]
  rintro ⟨k, after⟩ hfound
  obtain ⟨hk, heq⟩ := hole?_eq_some_iff.mp hfound
  rcases List.append_eq_append_iff.mp heq with ⟨reach, hreach, hrest⟩ | ⟨inner, hinner, -⟩
  · cases reach with
    | nil =>
      -- the placeholder ends where the text does
      rw [List.append_nil] at hreach
      have hfits : hole? (c :: cs) = some (k, []) :=
        hole?_eq_some_iff.mpr ⟨hk, hreach.symm.trans (List.append_nil _).symm⟩
      rw [hfits] at h
      cases h
    | cons d reach =>
      -- a placeholder has an opening brace at its second place only
      rw [placeholderFor_eq k, List.cons_append, List.cons.injEq] at hreach
      rw [placeholderFor_eq key, List.cons_append, List.cons_append, List.cons_append,
        List.cons.injEq] at hrest
      obtain ⟨rfl, hreachTail⟩ := hrest
      have hplain : '\x7b' ∉ k.toList ++ ['\x7d'] := by
        rw [List.mem_append]
        rintro (hmem | hmem)
        · exact absurd (hk.2 _ hmem) (by decide)
        · exact absurd (List.mem_singleton.mp hmem) (by decide)
      cases cs with
      | nil =>
        rw [List.nil_append, List.cons.injEq] at hreach
        exact absurd hreach.2.1 (by decide)
      | cons e cs =>
        rw [List.cons_append, List.cons.injEq] at hreach
        cases reach with
        | nil =>
          have hlast := congrArg List.getLast? hreach.2.2
          simp at hlast
        | cons f reach =>
          rw [List.cons_append, List.cons.injEq] at hreachTail
          obtain ⟨rfl, -⟩ := hreachTail
          refine hplain ?_
          rw [hreach.2.2]
          simp
  · rw [hole?_eq_some_iff.mpr ⟨hk, hinner⟩] at h
    cases h

/-- **Around a placeholder a text is read as two texts.** -/
theorem parts_append_hole (hkey : IsKey key) (before after : List Char) :
    parts (before ++ (placeholderFor key ++ after)) =
      parts before ++ .hole key :: parts after := by
  induction before using parts_induction with
  | nil =>
    rw [List.nil_append, parts_hole hkey, parts]
    rfl
  | hole k rest hk ih =>
    rw [List.append_assoc, parts_hole hk, ih, parts_hole hk, List.cons_append]
  | plain c cs hnone ih =>
    rw [parts_plain hnone, List.cons_append, List.cons_append, ← ih]
    exact parts_plain (hole?_append_placeholder hnone key after)

/-- However the other keys are filled, the holes of a key that is not stay open. -/
theorem count_le_parts (hkey : IsKey key) (hopen : bound key = none) (ps : List Part)
    (before : List Char) :
    ps.count (.hole key) ≤ (parts (before ++ filledParts bound ps)).count (.hole key) := by
  induction ps generalizing before with
  | nil => exact Nat.zero_le _
  | cons p ps ih =>
    rw [filledParts_cons]
    by_cases hp : p = .hole key
    · subst hp
      have hrest := ih []
      rw [List.nil_append] at hrest
      rw [fill_hole_none hopen, parts_append_hole hkey, List.count_append, List.count_cons_self,
        List.count_cons_self]
      omega
    · rw [List.count_cons_of_ne hp, ← List.append_assoc]
      exact ih _

/-- One more key bound. -/
def also (bound : String → Option String) (key text : String) : String → Option String :=
  fun k => if k = key then some text else bound k

theorem fill_also {p : Part} (h : p ≠ .hole key) : p.fill (also bound key text) = p.fill bound := by
  cases p with
  | plain c => rfl
  | hole k =>
    have hk : k ≠ key := fun heq => h (heq ▸ rfl)
    rw [Part.fill, Part.fill, also, if_neg hk]

/-- If filling the other keys opened no hole of this one, the turn of this one fills the holes that
    it had, and no other. -/
theorem substituteWith_filled (hkey : IsKey key) (hopen : bound key = none) (ps : List Part)
    (before : List Char)
    (h : (parts (before ++ filledParts bound ps)).count (.hole key) = ps.count (.hole key)) :
    substituteWith (only key text) (before ++ filledParts bound ps) =
      before ++ filledParts (also bound key text) ps := by
  induction ps generalizing before with
  | nil =>
    have hnone : Part.hole key ∉ parts (before ++ filledParts bound []) :=
      List.count_eq_zero.mp h
    refine substituteWith_of_none fun k hk => only_of_ne ?_
    rintro rfl
    exact hnone hk
  | cons p ps ih =>
    rw [filledParts_cons] at h ⊢
    rw [filledParts_cons]
    by_cases hp : p = .hole key
    · subst hp
      -- this hole stands in both; so there is none before it, and behind it as many as there were
      have hrest := count_le_parts hkey hopen ps []
      rw [List.nil_append] at hrest
      rw [fill_hole_none hopen, parts_append_hole hkey, List.count_append, List.count_cons_self,
        List.count_cons_self] at h
      have hbefore : Part.hole key ∉ parts before := List.count_eq_zero.mp (by omega)
      have hbound : also bound key text key = some text := if_pos rfl
      have htail := ih [] (by rw [List.nil_append]; omega)
      have hstay : substituteWith (only key text) before = before := by
        refine substituteWith_of_none fun k hk => only_of_ne ?_
        rintro rfl
        exact hbefore hk
      rw [List.nil_append, List.nil_append] at htail
      rw [fill_hole_none hopen, fill_hole_some hbound, substituteWith, parts_append_hole hkey,
        filledParts, List.flatMap_append, List.flatMap_cons]
      exact congrArg₂ (· ++ ·) hstay
        (congrArg₂ (· ++ ·) (fill_hole_some (only_self key text)) htail)
    · rw [List.count_cons_of_ne hp, ← List.append_assoc] at h
      rw [fill_also hp, ← List.append_assoc, ← List.append_assoc]
      exact ih _ h

/-! ## All turns -/

/-- The bindings of some keys only. -/
def DataBindings.among (data : DataBindings) (keys : List String) : String → Option String :=
  fun key => if key ∈ keys then data.get? key else none

/-- Whatever keys are filled in already, the text then has the placeholder of every other bound key
    that it mentions as often as it was written: what is put in completes no such placeholder. -/
def Settled (data : DataBindings) (text : String) : Prop :=
  ∀ (done : List String) (key : String), key ∉ done → key ∈ placeholders text →
    (data.get? key).isSome →
    (parts (substituteWith (data.among done) text.toList)).count (.hole key) =
      (parts text.toList).count (.hole key)

variable {data : DataBindings}

theorem among_cons_some (done : List String) (h : data.get? key = some text) :
    data.among (key :: done) = also (data.among done) key text := by
  funext k
  by_cases hk : k = key
  · rw [DataBindings.among, also, if_pos hk, if_pos (hk ▸ List.mem_cons_self), hk, h]
  · simp only [DataBindings.among, also, List.mem_cons, hk, false_or, if_false]

theorem among_cons_none (done : List String) (h : data.get? key = none) :
    data.among (key :: done) = data.among done := by
  funext k
  by_cases hk : k = key
  · subst hk
    rw [DataBindings.among, DataBindings.among, h, ite_self, ite_self]
  · simp only [DataBindings.among, List.mem_cons, hk, false_or]

/-- Taking the keys in turn, from where some are filled in, fills in those and these at once. -/
theorem fillKeys_settled {written : String} (h : Settled data written) (keys done : List String)
    (hmentioned : ∀ key ∈ keys, key ∈ placeholders written) (hnodup : keys.Nodup)
    (hdone : ∀ key ∈ keys, key ∉ done) :
    fillKeys data keys (substituteWith (data.among done) written.toList) =
      substituteWith (data.among (keys.reverse ++ done)) written.toList := by
  induction keys generalizing done with
  | nil => rfl
  | cons key rest ih =>
    have hkey : IsKey key := (mem_placeholders.mp (hmentioned key List.mem_cons_self)).1
    have hfresh := hdone key List.mem_cons_self
    rw [List.nodup_cons] at hnodup
    have hnext : ∀ k ∈ rest, k ∉ key :: done := by
      intro k hk hmem
      rcases List.mem_cons.mp hmem with rfl | hmem
      · exact hnodup.1 hk
      · exact hdone k (List.mem_cons_of_mem key hk) hmem
    have hrest := ih (key :: done) (fun k hk => hmentioned k (List.mem_cons_of_mem key hk))
      hnodup.2 hnext
    rw [List.reverse_cons, List.append_assoc, List.singleton_append, ← hrest, fillKeys]
    cases hbound : data.get? key with
    | none => rw [among_cons_none done hbound]
    | some value =>
      have hopen : data.among done key = none := if_neg hfresh
      have hcount := h done key hfresh (hmentioned key List.mem_cons_self) (hbound ▸ rfl)
      dsimp only
      rw [replaceAll_eq hkey, among_cons_some done hbound]
      exact congrArg _ (substituteWith_filled hkey hopen (parts written.toList) [] hcount)

theorem nodup_placeholders (text : String) : (placeholders text).Nodup := by
  rw [placeholders, ← List.foldl_map (f := String.ofList) (g := insertNew)]
  exact nodup_foldl_insertNew List.nodup_nil _

/-- Whatever order the keys of a text are taken in, all at once comes to the same. -/
theorem fillKeys_eq_substitute {written : String} (h : Settled data written) {order : List String}
    (horder : order.Perm (placeholders written)) :
    fillKeys data order written.toList = (substitute data written).toList := by
  have hnodup : order.Nodup := horder.nodup_iff.mpr (nodup_placeholders written)
  have hturns := fillKeys_settled h order [] (fun key hkey => horder.mem_iff.mp hkey) hnodup
    fun _ _ => List.not_mem_nil
  have hstart : substituteWith (data.among []) written.toList = written.toList :=
    substituteWith_of_none fun _ _ => if_neg List.not_mem_nil
  rw [hstart, List.append_nil] at hturns
  rw [hturns, substitute, String.toList_ofList]
  refine filledParts_congr fun key hkey => if_pos ?_
  rw [List.mem_reverse, horder.mem_iff]
  exact mem_placeholders_of_hole hkey

/-- **Filling in is substitution where no text completes a placeholder.**  The property keeps its
    line; its placeholders of bound keys are exchanged all at once, and the order in which the keys
    are taken does not show. -/
theorem Declaration.filled?_eq_substitute (d : Declaration) (key : String) (data : DataBindings)
    (h : ∀ p, d.property? key = some p → Settled data p.value) :
    (d.filled? key data =
      (d.property? key).map fun p => ⟨substitute data p.value, p.line⟩) ∧
    ∀ p, d.property? key = some p → ∀ order : List String, order.Perm (placeholders p.value) →
      String.ofList (fillKeys data order p.value.toList) = substitute data p.value := by
  have hany : ∀ p, d.property? key = some p → ∀ order : List String,
      order.Perm (placeholders p.value) →
      String.ofList (fillKeys data order p.value.toList) = substitute data p.value := by
    intro p hp order horder
    rw [fillKeys_eq_substitute (h p hp) horder, String.ofList_toList]
  refine ⟨?_, hany⟩
  rw [Declaration.filled?]
  cases hp : d.property? key with
  | none => rfl
  | some p =>
    have hown : fill data p.value = substitute data p.value :=
      hany p hp _ (List.Perm.refl _)
    rw [Option.map_some, Option.map_some, hown]

/-! ## Texts that complete no placeholder -/

/-- With one bound key among those that a text mentions, no other can gain a placeholder. -/
theorem settled_of_single {written : String} (single : String)
    (h : ∀ key ∈ placeholders written, (data.get? key).isSome → key = single) :
    Settled data written := by
  intro done key hdone hkey hbound
  have hself := h key hkey hbound
  rw [substituteWith_of_none]
  intro k hk
  -- a bound key of the text is this one, which is still to be filled
  cases hvalue : data.among done k with
  | none => rfl
  | some value =>
    rw [DataBindings.among] at hvalue
    split at hvalue
    · rename_i hmem
      have hk' := h k (mem_placeholders_of_hole hk) (hvalue ▸ rfl)
      exact absurd hmem (hk'.trans hself.symm ▸ hdone)
    · cases hvalue

/-- Whether a part brings an opening brace into the text, other than that of a placeholder. -/
def Part.Plain (data : DataBindings) : Part → Prop
  | plain c => c ≠ '\x7b'
  | hole key => ∀ text, data.get? key = some text → '\x7b' ∉ text.toList

instance (data : DataBindings) (p : Part) : Decidable (p.Plain data) :=
  match p with
  | .plain c => inferInstanceAs (Decidable (c ≠ '\x7b'))
  | .hole key => match h : data.get? key with
    | none => .isTrue fun _ htext => by rw [h] at htext; cases htext
    | some text =>
      if hmem : '\x7b' ∈ text.toList then .isFalse fun hplain => hplain text h hmem
      else .isTrue fun _ htext => Option.some.inj (h.symm.trans htext) ▸ hmem

theorem parts_plains {cs : List Char} (h : '\x7b' ∉ cs) : parts cs = cs.map .plain := by
  induction cs with
  | nil => rw [parts, List.map_nil]
  | cons c cs ih =>
    have hnone : hole? (c :: cs) = none := by
      rw [Option.eq_none_iff_forall_ne_some]
      rintro ⟨key, rest⟩ hfound
      rw [(hole?_eq_some_iff.mp hfound).2, placeholderFor_eq] at h
      simp at h
    rw [parts_plain hnone, ih fun hmem => h (List.mem_cons_of_mem c hmem), List.map_cons]

/-- Filled with texts that have no opening brace, a text has the holes that were not filled. -/
theorem count_parts_plain (hopen : bound key = none) (ps : List Part)
    (hkeys : ∀ k, .hole k ∈ ps → IsKey k) (hplain : ∀ c, .plain c ∈ ps → c ≠ '\x7b')
    (htexts : ∀ k text, .hole k ∈ ps → bound k = some text → '\x7b' ∉ text.toList)
    (before : List Char) (hbefore : '\x7b' ∉ before) :
    (parts (before ++ filledParts bound ps)).count (.hole key) = ps.count (.hole key) := by
  induction ps generalizing before with
  | nil =>
    rw [filledParts, List.flatMap_nil, List.append_nil, parts_plains hbefore, List.count_nil,
      List.count_eq_zero, List.mem_map]
    rintro ⟨c, -, h⟩
    cases h
  | cons p ps ih =>
    have hrest := ih (fun k hk => hkeys k (List.mem_cons_of_mem p hk))
      (fun c hc => hplain c (List.mem_cons_of_mem p hc))
      (fun k text hk => htexts k text (List.mem_cons_of_mem p hk))
    have happend : ∀ more : List Char, '\x7b' ∉ more → '\x7b' ∉ before ++ more :=
      fun more hmore hmem => (List.mem_append.mp hmem).elim hbefore hmore
    rw [filledParts_cons]
    cases p with
    | plain c =>
      rw [List.count_cons_of_ne (by simp), ← List.append_assoc]
      refine hrest _ (happend _ fun hmem => ?_)
      exact hplain c List.mem_cons_self (List.mem_singleton.mp hmem).symm
    | hole k =>
      cases hk : bound k with
      | some text =>
        have hne : Part.hole k ≠ .hole key := by
          rintro heq
          rw [Part.hole.inj heq, hopen] at hk
          cases hk
        rw [fill_hole_some hk, List.count_cons_of_ne hne, ← List.append_assoc]
        exact hrest _ (happend _ (htexts k text List.mem_cons_self hk))
      | none =>
        have htail := hrest [] List.not_mem_nil
        have hnone : (parts before).count (.hole key) = 0 := by
          rw [parts_plains hbefore, List.count_eq_zero, List.mem_map]
          rintro ⟨c, -, h⟩
          cases h
        rw [List.nil_append] at htail
        rw [fill_hole_none hk, parts_append_hole (hkeys k List.mem_cons_self), List.count_append,
          hnone, Nat.zero_add, List.count_cons, List.count_cons, htail]

/-- **Texts without an opening brace complete no placeholder**, where the sheet has no such brace
    but in placeholders either. -/
theorem settled_of_plain {written : String}
    (h : ∀ p ∈ parts written.toList, p.Plain data) : Settled data written := by
  intro done key hdone _ _
  refine count_parts_plain (if_neg hdone) _
    (fun k hk => isKey_of_mem_parts _ hk) (fun c hc => h _ hc) ?_ [] List.not_mem_nil
  intro k text hk htext
  rw [DataBindings.among] at htext
  split at htext
  · exact h _ hk text htext
  · cases htext

/-- A declaration with one property, on its second line. -/
def captioned (text : String) : Declaration :=
  ((Declaration.empty "Caption").setProperty "text" text 2).2

/-- Two keys with plain texts, one of them bound twice in the text and one key not bound. -/
theorem filled?_eq_substitute_plain :
    let data := DataBindings.ofList [("name", "Ada \x7d"), ("day", "#")]
    let d := captioned "#{name}, #{day} #{name} #{place}"
    (∀ p, d.property? "text" = some p → Settled data p.value) ∧
    d.filled? "text" data = some ⟨"Ada \x7d, # Ada \x7d #{place}", 2⟩ := by
  intro data d
  have hproperty : d.property? "text" =
      some ⟨"#{name}, #{day} #{name} #{place}", 2⟩ := by decide +kernel
  have hsettled : ∀ p, d.property? "text" = some p → Settled data p.value := by
    intro p hp
    rw [hproperty] at hp
    obtain rfl := Option.some.inj hp
    exact settled_of_plain (by decide +kernel)
  have hsubstitute :
      substitute data "#{name}, #{day} #{name} #{place}" =
        "Ada \x7d, # Ada \x7d #{place}" := by decide +kernel
  refine ⟨hsettled, ?_⟩
  rw [(d.filled?_eq_substitute "text" data hsettled).1, hproperty, Option.map_some, hsubstitute]

/-- A text put in is searched: the placeholder in it is filled as well, unless its key has had its
    turn already.  A single `#` put in before a brace does the same. -/
theorem fill_not_substitute :
    let data := DataBindings.ofList [("a", "#{b}"), ("b", "x"), ("c", "#")]
    let d := captioned "#{a} #{b}"
    d.filled? "text" data = some ⟨"x x", 2⟩ ∧
    (d.property? "text").map (fun p => substitute data p.value) = some "#{b} x" ∧
    String.ofList (fillKeys data ["b", "a"] "#{a} #{b}".toList) = "#{b} x" ∧
    fill data "#{c}{b} #{b}" = "x x" ∧
    substitute data "#{c}{b} #{b}" = "#{b} x" := by
  decide +kernel

end ViewSheet
