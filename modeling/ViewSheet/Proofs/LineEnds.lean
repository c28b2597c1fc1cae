/-
  Line ends: what cutting a source into lines keeps, and what is left of each line.

  1. **Program**: `splitLines` cuts a source at a line feed, at a carriage return, or at the two in
     a row, `sourceLines` numbers the lines, and `codeOf` takes a comment off the end of a line, and
     the blanks before it.

  2. **Specification**: the lines and the ends between them are the source again (`Joined`), and in
     front of a line there are as many ends as lines (`Joined.cut`).  Of a line counts what stands
     before its first comment mark (`UpToFirst`), without the blanks at the end of that (`IsCode`).

  3. **The crux** (`LineEnd.eq_of_chars_append`): since a carriage return by itself is not followed
     by a line feed, a text can start with one end only.  So the ends between given lines are
     determined by the text (`Joined.ends_unique`).

  4. **Result** (`lines_lossless`): cutting loses nothing and numbers every line by its place, and
     of any line exactly the part that counts is left.
-/
import ViewSheet.Proofs.Layout

namespace ViewSheet.Text

variable {lines : List (List Char)} {ends : List LineEnd} {text : List Char}

/-! ## Lines with the ends between them -/

/-- One more character at the front belongs to the first line. -/
theorem Joined.cons {line : List Char} (h : Joined (line :: lines) ends text) (c : Char) :
    Joined ((c :: line) :: lines) ends (c :: text) := by
  cases h with
  | last => exact .last _
  | more rest line e apart => exact .more rest (c :: line) e apart

/-- **Nothing is lost**: a text is its lines with some ends between them. -/
theorem exists_joined (cs : List Char) : ∃ ends, Joined (splitLines cs) ends cs := by
  induction cs using splitLines.induct with
  | case1 => exact ⟨[], .last []⟩
  | case2 cs ih =>
    obtain ⟨ends, hcs⟩ := ih
    exact ⟨.both :: ends, .more hcs [] .both (by rintro ⟨⟩)⟩
  | case3 c cs hnot hbreak ih =>
    obtain ⟨ends, hcs⟩ := ih
    rw [splitLines_break hbreak hnot]
    rw [isBreak, Bool.or_eq_true, beq_iff_eq, beq_iff_eq] at hbreak
    rcases hbreak with rfl | rfl
    · exact ⟨.lineFeed :: ends, .more hcs [] .lineFeed (by rintro ⟨⟩)⟩
    · -- the line feed of a pair would have been taken with it
      have hapart : cs.head? ≠ some '\n' := by
        intro hhead
        obtain ⟨tail, htail⟩ := List.head?_eq_some_iff.mp hhead
        exact hnot tail rfl htail
      exact ⟨.carriageReturn :: ends, .more hcs [] .carriageReturn fun _ => hapart⟩
  | case4 c cs hnot hbreak hnil ih => exact absurd hnil (splitLines_ne_nil cs)
  | case5 c cs hnot hbreak line rest hcs ih =>
    obtain ⟨ends, hends⟩ := ih
    obtain ⟨line', rest', hcs', hsplit⟩ := splitLines_other (Bool.eq_false_iff.mpr hbreak) cs
    rw [hcs'] at hends
    exact ⟨ends, hsplit ▸ hends.cons c⟩

theorem Joined.length_eq (h : Joined lines ends text) : lines.length = ends.length + 1 := by
  induction h with
  | last line => rfl
  | more _ _ _ _ ih => rw [List.length_cons, List.length_cons, ih]

-- three ends in a row: a line feed, a carriage return, and the two together
example : splitLines ['\n', '\r', '\r', '\n'] = [[], [], [], []] := by decide

/-- **A text starts with one end only**, if no line feed follows a carriage return by itself. -/
theorem LineEnd.eq_of_chars_append {e e' : LineEnd} {text text' : List Char}
    (h : e.chars ++ text = e'.chars ++ text') (apart : e = .carriageReturn → text.head? ≠ some '\n')
    (apart' : e' = .carriageReturn → text'.head? ≠ some '\n') : e = e' ∧ text = text' := by
  have hpair : ∀ {cs cs' : List Char}, carriageReturn.chars ++ cs = both.chars ++ cs' →
      cs.head? = some '\n' := fun h => congrArg List.head? (List.cons.inj h).2
  cases e <;> cases e'
  case carriageReturn.both => exact absurd (hpair h) (apart rfl)
  case both.carriageReturn => exact absurd (hpair h.symm) (apart' rfl)
  case lineFeed.lineFeed | carriageReturn.carriageReturn | both.both =>
    exact ⟨rfl, List.append_cancel_left h⟩
  -- any other two ends start with different characters
  all_goals cases h

/-- The ends between lines are determined by the text. -/
theorem Joined.ends_unique (h : Joined lines ends text) {ends' : List LineEnd}
    (h' : Joined lines ends' text) : ends' = ends := by
  induction h generalizing ends' with
  | last line => exact List.length_eq_zero_iff.mp (Nat.succ.inj h'.length_eq).symm
  | more rest line e apart ih =>
    generalize htext : line ++ e.chars ++ _ = whole at h'
    cases h' with
    | last => cases rest
    | more rest' _ e' apart' =>
      rw [List.append_assoc, List.append_assoc, List.append_cancel_left_eq] at htext
      obtain ⟨rfl, rfl⟩ := LineEnd.eq_of_chars_append htext apart apart'
      rw [ih rest']

/-- **A line starts behind as many ends as there are lines before it.** -/
theorem Joined.cut (h : Joined lines ends text) {i : Nat} (hi : i < lines.length) :
    ∃ front rest, text = front ++ rest ∧ Joined (lines.take i ++ [[]]) (ends.take i) front ∧
      Joined (lines.drop i) (ends.drop i) rest := by
  induction h generalizing i with
  | last line =>
    obtain rfl : i = 0 := Nat.lt_one_iff.mp hi
    exact ⟨[], line, rfl, .last [], .last line⟩
  | @more lines ends text later line e apart ih =>
    cases i with
    | zero => exact ⟨[], _, rfl, .last [], .more later line e apart⟩
    | succ i =>
      obtain ⟨front, rest, rfl, hfront, hrest⟩ := ih (Nat.lt_of_succ_lt_succ hi)
      refine ⟨line ++ e.chars ++ front, rest, (List.append_assoc _ _ _).symm,
        .more hfront line e fun he hhead => apart he ?_, hrest⟩
      rw [List.head?_append, hhead]
      rfl

/-! ## Numbers -/

theorem getElem?_numbered (n : Nat) (texts : List (List Char)) (i : Nat) :
    (numbered n texts)[i]? = texts[i]?.map fun text => (⟨n + i, text⟩ : Line) := by
  induction texts generalizing n i with
  | nil => rfl
  | cons t rest ih =>
    cases i with
    | zero => rfl
    | succ i =>
      rw [numbered, List.getElem?_cons_succ, List.getElem?_cons_succ, ih, Nat.add_assoc n,
        Nat.add_comm 1]

/-! ## The code of a line -/

/-- What stands before the first mark of a text, or all of a text without the mark. -/
inductive UpToFirst (mark : List Char) : List Char → List Char → Prop where
  | whole {cs : List Char} (unmarked : ¬ mark <:+: cs) : UpToFirst mark cs cs
  | marked {cs head tail : List Char} (parts : cs = head ++ mark ++ tail)
      (first : ∀ front back, cs = front ++ mark ++ back → head.length ≤ front.length) :
      UpToFirst mark cs head

/-- No mark starts earlier than the one that is found. -/
theorem length_before_le {mark cs front back : List Char} (h : cs = front ++ mark ++ back) :
    (before mark cs).length ≤ front.length := by
  induction front generalizing cs with
  | nil =>
    cases cs with
    | nil => exact (isPrefix_before mark []).length_le
    | cons c cs =>
      rw [List.nil_append] at h
      rw [before_cons, h, stripStart?_append]
  | cons c front ih =>
    obtain rfl : cs = c :: (front ++ mark ++ back) := h
    rw [before_cons]
    split
    · exact Nat.zero_le _
    · rw [List.length_cons, List.length_cons]
      exact Nat.succ_le_succ (ih rfl)

theorem upToFirst_before {mark : List Char} (hmark : mark ≠ []) (cs : List Char) :
    UpToFirst mark cs (before mark cs) := by
  rcases hcut : cutAt? mark cs with _ | ⟨head, tail⟩
  · have hbefore : before mark cs = cs := by rw [before, hcut]
    have hnone := not_infix_before hmark cs
    rw [hbefore] at hnone ⊢
    exact .whole hnone
  · have hbefore : before mark cs = head := by rw [before, hcut]
    rw [hbefore]
    exact .marked (eq_of_cutAt? hcut) fun _ _ hsplit => hbefore ▸ length_before_le hsplit

theorem UpToFirst.isPrefix {mark cs head : List Char} (h : UpToFirst mark cs head) :
    head <+: cs := by
  cases h with
  | whole => exact List.prefix_refl cs
  | marked parts =>
    rw [parts, List.append_assoc]
    exact List.prefix_append head _

/-- There is one first mark. -/
theorem UpToFirst.unique {mark cs head head' : List Char} (h : UpToFirst mark cs head)
    (h' : UpToFirst mark cs head') : head = head' := by
  have hlength : head.length = head'.length := by
    cases h with
    | whole unmarked =>
      cases h' with
      | whole => rfl
      | marked parts => exact absurd ⟨_, _, parts.symm⟩ unmarked
    | marked parts first =>
      cases h' with
      | whole unmarked => exact absurd ⟨_, _, parts.symm⟩ unmarked
      | marked parts' first' => exact Nat.le_antisymm (first _ _ parts') (first' _ _ parts)
  exact (List.prefix_of_prefix_length_le h.isPrefix h'.isPrefix hlength.le).eq_of_length hlength

/-- The text is the part of the line that counts. -/
structure IsCode (line code : List Char) : Prop where
  isPrefix : code <+: line
  uncommented : ¬ commentMark <:+: code
  trimmed : ∀ c, code.getLast? = some c → isBlank c = false
  /-- Only blanks are behind it, up to the first comment or to the end. -/
  dropped : ∃ blanks, (∀ c ∈ blanks, isBlank c = true) ∧
    UpToFirst commentMark line (code ++ blanks)

theorem isCode_codeOf (line : List Char) : IsCode line (codeOf line) := by
  obtain ⟨blanks, hsplit, hblanks⟩ := trimEnd_append_blanks (before commentMark line)
  have hcode : codeOf line <+: before commentMark line := ⟨blanks, hsplit.symm⟩
  refine ⟨hcode.trans (isPrefix_before commentMark line), fun hmark => ?_,
    trimEnd_getLast? (before commentMark line), blanks, hblanks, ?_⟩
  · exact not_infix_before (by decide) line (hmark.trans hcode.isInfix)
  · rw [codeOf, ← hsplit]
    exact upToFirst_before (by decide) line

theorem IsCode.eq_codeOf {line code : List Char} (h : IsCode line code) : code = codeOf line := by
  obtain ⟨blanks, hblanks, hfirst⟩ := h.dropped
  have hbefore := hfirst.unique (upToFirst_before (by decide) line)
  rw [codeOf, ← hbefore, trimEnd_append_of_blanks code hblanks, trimEnd_eq_self h.trimmed]

/-- Code has nothing more to take off. -/
theorem IsCode.codeOf_eq_self {line code : List Char} (h : IsCode line code) :
    codeOf code = code := by
  rw [codeOf, before_eq_self h.uncommented, trimEnd_eq_self h.trimmed]

/-! ## Result -/

/-- What can be relied on when a place in a source is reported by the number of a line. -/
structure Lossless (source : List Char) : Prop where
  unbroken : ∀ line ∈ splitLines source, ∀ c ∈ line, isBreak c = false
  joined : ∃! ends, Joined (splitLines source) ends source
  counted : ∀ ends, Joined (splitLines source) ends source →
    (splitLines source).length = ends.length + 1
  /-- No other lines without breaks make the source. -/
  sole : ∀ lines ends, (∀ line ∈ lines, ∀ c ∈ line, isBreak c = false) →
    Joined lines ends source → lines = splitLines source
  /-- Every line has one entry, in its place, with its number. -/
  entries : ∀ i, (sourceLines source)[i]? =
    (splitLines source)[i]?.map fun line => (⟨i + 1, codeOf line⟩ : Line)
  /-- What stands before a line has the lines before it with their ends, and nothing behind the last
      of these. -/
  placed : ∀ ends, Joined (splitLines source) ends source → ∀ i < (splitLines source).length,
    ∃ front rest, source = front ++ rest ∧
      Joined ((splitLines source).take i ++ [[]]) (ends.take i) front ∧
      Joined ((splitLines source).drop i) (ends.drop i) rest

/-- **Cutting loses nothing, and lines are numbered by their place.**  The lines of a source have no
    breaks, and exactly one sequence of ends between them makes the source again; it has one end
    less than there are lines.  Every line has its entry, with a number one greater than the number
    of ends before it.  What is left of a line is the part that counts and nothing else, and all of
    that counts. -/
theorem lines_lossless (source : List Char) : Lossless source ∧
    ∀ line, IsCode line (codeOf line) ∧ (∀ code, IsCode line code → code = codeOf line) ∧
      codeOf (codeOf line) = codeOf line := by
  refine ⟨?_, fun line => ?_⟩
  · obtain ⟨ends, hends⟩ := exists_joined source
    refine ⟨no_break_of_mem_splitLines source, ⟨ends, hends, fun _ => hends.ends_unique⟩,
      fun _ => Joined.length_eq, fun _ _ hlines h => (splitLines_of_joined h hlines).symm,
      fun i => ?_, fun _ h _ hi => h.cut hi⟩
    rw [sourceLines, getElem?_numbered, List.getElem?_map, Option.map_map, Nat.add_comm 1]
    rfl
  · have hcode := isCode_codeOf line
    exact ⟨hcode, fun _ => IsCode.eq_codeOf, hcode.codeOf_eq_self⟩

end ViewSheet.Text
